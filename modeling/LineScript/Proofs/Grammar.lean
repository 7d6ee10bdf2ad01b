import LineScript.Expression

/-!
The grammar of expressions as a type of trees, and the tokens that a tree is written with.

    expression = NUMBER | TEXT | LABEL | REFERENCE | call
    call       = "(" PLAIN (expression handler?)* ")" handler?
    handler    = "->" (LABEL | call)

Brackets pair up in the tokens of a tree. So the bracket that closes a call is found by counting,
and a handler is passed over as a whole up to the handler of the call in it.
-/

namespace LineScript

abbrev Token.Of (type : TokenType) := { token : Token // token.type = type }

namespace Grammar

mutual

inductive Expr where
  | number (token : Token.Of .number)
  | text (token : Token.Of .text)
  | label (token : Token.Of .label)
  | reference (token : Token.Of .reference)
  | call (call : Call)

inductive Call where
  | mk (opener : Token.Of .functionStart) (name : Token.Of .plain) (operands : Operands)
      (closer : Token.Of .functionEnd) (handler : Handler)

/-- The operands of a call, each with the handler that may stand right after it. -/
inductive Operands where
  | nil
  | cons (operand : Expr) (handler : Handler) (rest : Operands)

/-- What may follow a call or an operand: nothing, or an arrow with a label or a call. -/
inductive Handler where
  | none
  | label (marker : Token.Of .onFail) (label : Token.Of .label)
  | call (marker : Token.Of .onFail) (call : Call)

end

mutual

def Expr.tokens : Expr → List Token
  | .number token => [token.val]
  | .text token => [token.val]
  | .label token => [token.val]
  | .reference token => [token.val]
  | .call call => call.tokens

def Call.tokens : Call → List Token
  | ⟨opener, name, operands, closer, handler⟩ =>
      opener.val :: name.val :: (operands.tokens ++ closer.val :: handler.tokens)

def Operands.tokens : Operands → List Token
  | .nil => []
  | .cons operand handler rest => operand.tokens ++ (handler.tokens ++ rest.tokens)

def Handler.tokens : Handler → List Token
  | .none => []
  | .label marker label => [marker.val, label.val]
  | .call marker call => marker.val :: call.tokens

end

def startsHandler (tokens : List Token) : Bool :=
  match tokens with
  | [] => false
  | token :: _ => token.type = .onFail

/-- How many handlers stand one after another: a handler that is a call may have a handler. -/
def Handler.length : Handler → Nat
  | .none => 0
  | .label _ _ => 1
  | .call _ ⟨_, _, _, _, handler⟩ => handler.length + 1

theorem Expr.tokens_eq_cons (e : Expr) :
    ∃ token rest, e.tokens = token :: rest ∧ token.type ≠ .onFail ∧ token.type ≠ .functionEnd := by
  cases e with
  | number token => exact ⟨token.val, [], rfl, by simp [token.2], by simp [token.2]⟩
  | text token => exact ⟨token.val, [], rfl, by simp [token.2], by simp [token.2]⟩
  | label token => exact ⟨token.val, [], rfl, by simp [token.2], by simp [token.2]⟩
  | reference token => exact ⟨token.val, [], rfl, by simp [token.2], by simp [token.2]⟩
  | call call =>
      obtain ⟨opener, name, operands, closer, handler⟩ := call
      exact ⟨opener.val, _, rfl, by simp [opener.2], by simp [opener.2]⟩

theorem startsHandler_operands (operands : Operands) (closer : Token.Of .functionEnd)
    (rest : List Token) : startsHandler (operands.tokens ++ closer.val :: rest) = false := by
  cases operands with
  | nil => simp [Operands.tokens, startsHandler, closer.2]
  | cons operand handler more =>
      obtain ⟨token, tail, htokens, hmarker, -⟩ := operand.tokens_eq_cons
      simp [Operands.tokens, htokens, startsHandler, hmarker]

section Closing

open Expression

theorem closingFrom_start {token : Token} (h : token.type = .functionStart) (depth : Int)
    (rest : List Token) :
    closingFrom depth (token :: rest) = (closingFrom (depth + 1) rest).map (· + 1) := by
  simp [closingFrom, h]

theorem closingFrom_end {token : Token} (h : token.type = .functionEnd) (depth : Int)
    (rest : List Token) :
    closingFrom depth (token :: rest) =
      if depth = 1 then some 0 else (closingFrom (depth - 1) rest).map (· + 1) := by
  simp [closingFrom, h]

theorem closingFrom_other {token : Token} (hstart : token.type ≠ .functionStart)
    (hend : token.type ≠ .functionEnd) (depth : Int) (rest : List Token) :
    closingFrom depth (token :: rest) = (closingFrom depth rest).map (· + 1) := by
  rw [closingFrom]
  split <;> simp_all

private theorem map_add_map_add (found : Option Nat) (m n : Nat) :
    (found.map (· + m)).map (· + n) = found.map (· + (n + m)) := by
  rw [Option.map_map]
  congr 1
  funext index
  simp only [Function.comp_apply]
  omega

mutual

/-- Inside an open bracket an expression is passed over: all its own brackets are closed in it. -/
theorem Expr.closingFrom_tokens (e : Expr) {depth : Int} (hdepth : 1 ≤ depth)
    (rest : List Token) :
    closingFrom depth (e.tokens ++ rest) =
      (closingFrom depth rest).map (· + e.tokens.length) := by
  cases e with
  | number token => exact closingFrom_other (by simp [token.2]) (by simp [token.2]) depth rest
  | text token => exact closingFrom_other (by simp [token.2]) (by simp [token.2]) depth rest
  | label token => exact closingFrom_other (by simp [token.2]) (by simp [token.2]) depth rest
  | reference token =>
      exact closingFrom_other (by simp [token.2]) (by simp [token.2]) depth rest
  | call call => exact call.closingFrom_tokens hdepth rest

theorem Call.closingFrom_tokens (call : Call) {depth : Int} (hdepth : 1 ≤ depth)
    (rest : List Token) :
    closingFrom depth (call.tokens ++ rest) =
      (closingFrom depth rest).map (· + call.tokens.length) := by
  obtain ⟨opener, name, operands, closer, handler⟩ := call
  have hhandler := handler.closingFrom_tokens hdepth rest
  have houter : ¬ depth + 1 = 1 := by omega
  simp only [Call.tokens, List.cons_append, List.append_assoc]
  rw [closingFrom_start opener.2,
    closingFrom_other (by simp [name.2]) (by simp [name.2]),
    operands.closingFrom_tokens (by omega) _,
    closingFrom_end closer.2, if_neg houter, Int.add_sub_cancel, hhandler]
  simp only [map_add_map_add]
  refine congrArg (fun length => (closingFrom depth rest).map (· + length)) ?_
  simp only [List.length_cons, List.length_append]
  omega

theorem Operands.closingFrom_tokens (operands : Operands) {depth : Int} (hdepth : 1 ≤ depth)
    (rest : List Token) :
    closingFrom depth (operands.tokens ++ rest) =
      (closingFrom depth rest).map (· + operands.tokens.length) := by
  cases operands with
  | nil => simp [Operands.tokens]
  | cons operand handler more =>
      simp only [Operands.tokens, List.append_assoc]
      rw [operand.closingFrom_tokens hdepth, handler.closingFrom_tokens hdepth,
        more.closingFrom_tokens hdepth]
      simp only [map_add_map_add, List.length_append]

theorem Handler.closingFrom_tokens (handler : Handler) {depth : Int} (hdepth : 1 ≤ depth)
    (rest : List Token) :
    closingFrom depth (handler.tokens ++ rest) =
      (closingFrom depth rest).map (· + handler.tokens.length) := by
  cases handler with
  | none => simp [Handler.tokens]
  | label marker label =>
      simp only [Handler.tokens, List.cons_append, List.nil_append]
      rw [closingFrom_other (by simp [marker.2]) (by simp [marker.2]),
        closingFrom_other (by simp [label.2]) (by simp [label.2]), map_add_map_add]
      rfl
  | call marker call =>
      simp only [Handler.tokens, List.cons_append]
      rw [closingFrom_other (by simp [marker.2]) (by simp [marker.2]),
        call.closingFrom_tokens hdepth, map_add_map_add]
      refine congrArg (fun length => (closingFrom depth rest).map (· + length)) ?_
      rw [List.length_cons, Nat.add_comm]

end

/-- From inside a call the bracket that closes it is the one after its operands. -/
theorem closingFrom_operands (operands : Operands) (closer : Token.Of .functionEnd)
    (rest : List Token) :
    closingFrom 1 (operands.tokens ++ closer.val :: rest) = some operands.tokens.length := by
  rw [operands.closingFrom_tokens (by omega), closingFrom_end closer.2, if_pos rfl]
  simp

/-- Passing over a handler that is a call stops right after the closing bracket of the call. -/
theorem skipHandler_call (marker : Token) (opener : Token.Of .functionStart)
    (name : Token.Of .plain) (operands : Operands) (closer : Token.Of .functionEnd)
    (rest : List Token) :
    skipHandler marker
        (opener.val :: name.val :: (operands.tokens ++ closer.val :: rest)) =
      ⟨operands.tokens.length + 4, .ok ()⟩ := by
  simp only [skipHandler, opener.2]
  rw [closingFrom_other (by simp [name.2]) (by simp [name.2]), closingFrom_operands]
  rfl

theorem skipHandler_label (marker : Token) (label : Token.Of .label) (rest : List Token) :
    skipHandler marker (label.val :: rest) = ⟨2, .ok ()⟩ := by
  simp only [skipHandler, label.2]

end Closing

end Grammar

end LineScript
