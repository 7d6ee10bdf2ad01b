import LineScript.Proofs.Grammar

/-!
The meaning of an expression read off its tree, and its agreement with the evaluation of the tokens.

The evaluator over trees has no tokens to count. Operands are evaluated from left to right, then the
function is called; the first failure on the way goes to the handler of the call. A handler that
stands right after an operand belongs to the last call of that operand that has no handler yet;
after anything but a call it is never used.
-/

namespace LineScript

namespace Grammar

abbrev Recovery := Context → Failure → Context × Except Failure Outcome

def unhandled : Recovery := fun context failure => (context, .error failure)

/-- Goes on after a failure of the execution, whose message is recorded first. Any other failure
stays. -/
def takeOver (goOn : Context → Context × Except Failure Outcome) : Recovery
  | context, .runtime _ cause => goOn (context.setLastError cause.message)
  | context, failure => (context, .error failure)

/-- Calls a function once its operands have been evaluated to arguments and to the first place to go
on at that one of them asked for. -/
def dispatch (name : Token) :
    Context × Except Failure (List Value × Option Bytes) → Context × Except Failure Outcome
  | (context, .error failure) => (context, .error failure)
  | (context, .ok (args, jump)) =>
      match context.call name args with
      | (context, .ok outcome) => (context, .ok (outcome.orJump jump))
      | (context, .error failure) => (context, .error failure)

mutual

/-- Evaluates an expression; `after` is what becomes of a failure that its last call has no handler
for. -/
def Expr.evaluate (after : Recovery) (context : Context) : Expr → Context × Except Failure Outcome
  | .number token =>
      match Number.parse? token.val.text with
      | some n => (context, .ok { value := .num n })
      | none => (context, .error (.malformed token.val .invalidNumber))
  | .text token => (context, .ok { value := .txt token.val.text })
  | .label token => (context, .ok { value := .lab token.val.text })
  | .reference token =>
      match context.store.value? token.val.text with
      | some value => (context, .ok { value })
      | none => (context, .error (.runtime token.val (.undefinedVariable token.val.text)))
  | .call call => call.evaluate after context

def Call.evaluate (after : Recovery) (context : Context) : Call → Context × Except Failure Outcome
  | ⟨_, name, operands, _, handler⟩ =>
      match dispatch name.val (operands.evaluate context) with
      | (context, .ok outcome) => (context, .ok outcome)
      | (context, .error failure) => handler.recover after context failure

def Operands.evaluate (context : Context) :
    Operands → Context × Except Failure (List Value × Option Bytes)
  | .nil => (context, .ok ([], none))
  | .cons operand handler rest =>
      match operand.evaluate (handler.recover unhandled) context with
      | (context, .error failure) => (context, .error failure)
      | (context, .ok outcome) =>
          match rest.evaluate context with
          | (context, .error failure) => (context, .error failure)
          | (context, .ok (args, jump)) =>
              (context, .ok (outcome.value :: args, outcome.jump.or jump))

def Handler.recover (after : Recovery) : Handler → Recovery
  | .none => after
  | .label _ label => takeOver fun context => (context, .ok (.jumpTo (.nat 0) label.val.text))
  | .call _ call => takeOver fun context => call.evaluate after context

end

/-- An evaluation with so many tokens before those that it used. -/
def shifted (count : Nat) (evaluated : Context × Span Outcome) : Context × Span Outcome :=
  (evaluated.1, evaluated.2.after count)

theorem shifted_shifted (m n : Nat) (evaluated : Context × Span Outcome) :
    shifted m (shifted n evaluated) = shifted (m + n) evaluated := by
  simp [shifted, Span.after, Nat.add_assoc]

/-- Two evaluations are alike if they differ at most in how many tokens a failure has used. -/
structure Alike (a b : Context × Span Outcome) : Prop where
  context : a.1 = b.1
  result : a.2.result = b.2.result
  length : ∀ outcome, b.2.result = .ok outcome → a.2.length = b.2.length

theorem Alike.refl (a : Context × Span Outcome) : Alike a a :=
  ⟨rfl, rfl, fun _ _ => rfl⟩

theorem Alike.trans {a b c : Context × Span Outcome} (hab : Alike a b) (hbc : Alike b c) :
    Alike a c := by
  refine ⟨hab.context.trans hbc.context, hab.result.trans hbc.result, ?_⟩
  intro outcome hok
  exact (hab.length outcome (hbc.result.trans hok)).trans (hbc.length outcome hok)

theorem Alike.shifted {a b : Context × Span Outcome} (h : Alike a b) (count : Nat) :
    Alike (shifted count a) (shifted count b) := by
  refine ⟨h.context, h.result, ?_⟩
  intro outcome hok
  exact congrArg (count + ·) (h.length outcome hok)

/-- How far a failure got says nothing about how far another one got. -/
theorem alike_error {context : Context} {failure : Failure} {m n : Nat} :
    Alike (context, ⟨m, .error failure⟩) (context, ⟨n, .error failure⟩) := by
  refine ⟨rfl, rfl, ?_⟩
  intro outcome hok
  cases hok

section Steps

open Expression

theorem evaluate_call (context : Context) (opener : Token.Of .functionStart)
    (name : Token.Of .plain) (rest : List Token) :
    evaluate context (opener.val :: name.val :: rest) =
      shifted 2 (evaluateOperands context opener.val name.val [] none rest) := by
  rw [evaluate]
  simp only [opener.2]
  rw [evaluateCall]
  simp only [name.2]
  exact shifted_shifted 1 1 _

theorem evaluateOperands_end (context : Context) (opener name : Token) (args : List Value)
    (jump : Option Bytes) (closer : Token.Of .functionEnd) (rest : List Token) :
    evaluateOperands context opener name args jump (closer.val :: rest) =
      match context.call name args with
      | (context, .ok outcome) => (context, ⟨1, .ok (outcome.orJump jump)⟩)
      | (context, .error failure) => shifted 1 (recover context failure rest) := by
  rw [evaluateOperands]
  simp only [closer.2]
  rfl

theorem evaluateOperands_skip {marker : Token} (hmarker : marker.type = .onFail)
    {length : Nat} {rest : List Token} (hskip : skipHandler marker rest = ⟨length + 1, .ok ()⟩)
    (context : Context) (opener name : Token) (args : List Value) (jump : Option Bytes) :
    evaluateOperands context opener name args jump (marker :: rest) =
      shifted (length + 1)
        (evaluateOperands context opener name args jump (rest.drop length)) := by
  rw [evaluateOperands]
  simp only [hmarker, hskip]
  rfl

theorem evaluateOperands_operand {token : Token} (hend : token.type ≠ .functionEnd)
    (hmarker : token.type ≠ .onFail) (context : Context) (opener name : Token)
    (args : List Value) (jump : Option Bytes) (rest : List Token) :
    evaluateOperands context opener name args jump (token :: rest) =
      match evaluate context (token :: rest) with
      | (context, ⟨length, .ok outcome⟩) =>
          shifted length
            (evaluateOperands context opener name (args ++ [outcome.value])
              (jump.or outcome.jump) (rest.drop (length - 1)))
      | (context, ⟨length, .error failure⟩) =>
          match failure.isRecoverable, closingFrom 1 (token :: rest) with
          | true, some last => shifted (last + 1) (recover context failure (rest.drop last))
          | _, _ => (context, ⟨length, .error failure⟩) := by
  rw [evaluateOperands]
  split
  · next h => exact absurd h hend
  · next h => exact absurd h hmarker
  · rfl

theorem recover_unhandled {rest : List Token} (h : startsHandler rest = false)
    (context : Context) (failure : Failure) :
    recover context failure rest = (context, ⟨0, .error failure⟩) := by
  cases rest with
  | nil => rw [recover]
  | cons marker rest =>
      rw [recover]
      intro token cause hmarker
      simp [startsHandler, hmarker] at h

theorem recover_of_not_runtime {failure : Failure}
    (h : ∀ token cause, failure ≠ .runtime token cause) (context : Context) (rest : List Token) :
    recover context failure rest = (context, ⟨0, .error failure⟩) := by
  cases rest with
  | nil => rw [recover]
  | cons marker rest =>
      rw [recover]
      intro token cause _
      exact h token cause

theorem recover_label (context : Context) (token : Option Token) (cause : RuntimeCause)
    (marker : Token.Of .onFail) (label : Token.Of .label) (rest : List Token) :
    recover context (.runtime token cause) (marker.val :: label.val :: rest) =
      (context.setLastError cause.message,
        ⟨2, .ok (.jumpTo (.nat 0) label.val.text)⟩) := by
  rw [recover]
  · simp only [label.2]
  · exact marker.2

theorem recover_call (context : Context) (token : Option Token) (cause : RuntimeCause)
    (marker : Token.Of .onFail) (call : Call) (rest : List Token) :
    recover context (.runtime token cause) (marker.val :: (call.tokens ++ rest)) =
      shifted 1 (evaluate (context.setLastError cause.message) (call.tokens ++ rest)) := by
  obtain ⟨opener, name, operands, closer, handler⟩ := call
  simp only [Call.tokens, List.cons_append]
  rw [recover]
  · simp only [opener.2]
    rfl
  · exact marker.2

theorem length_evaluate_pos (context : Context) (token : Token) (rest : List Token) :
    0 < (evaluate context (token :: rest)).2.length := by
  rw [evaluate]
  split
  · exact Nat.lt_of_lt_of_le Nat.zero_lt_one (Nat.le_add_right 1 _)
  · split <;> exact Nat.zero_lt_one
  · split <;> exact Nat.zero_lt_one
  · exact Nat.zero_lt_one
  · exact Nat.zero_lt_one
  · exact Nat.zero_lt_one

private theorem drop_length_succ (front : List Token) (token : Token) (rest : List Token) :
    (front ++ token :: rest).drop (front.length + 1) = rest := by
  simp

/-- A handler before what is left of the operands is passed over, and so is the handler of the call
in it. -/
theorem evaluateOperands_handler (context : Context) (opener name : Token) (args : List Value)
    (jump : Option Bytes) (handler : Handler) (rest : List Token) :
    evaluateOperands context opener name args jump (handler.tokens ++ rest) =
      shifted handler.tokens.length
        (evaluateOperands context opener name args jump rest) := by
  match handler with
  | .none => simp [Handler.tokens, shifted, Span.after]
  | .label marker label =>
      simp only [Handler.tokens, List.cons_append, List.nil_append]
      rw [evaluateOperands_skip marker.2 (skipHandler_label marker.val label rest)]
      rfl
  | .call marker ⟨first, called, operands, closer, inner⟩ =>
      simp only [Handler.tokens, Call.tokens, List.cons_append, List.append_assoc]
      rw [evaluateOperands_skip marker.2 (skipHandler_call marker.val first called operands
        closer (inner.tokens ++ rest))]
      simp only [List.drop_succ_cons, drop_length_succ]
      rw [evaluateOperands_handler context opener name args jump inner rest, shifted_shifted]
      refine congrArg (fun count => shifted count _) ?_
      simp only [List.length_cons, List.length_append]
      omega

theorem evaluateOperands_handlers (context : Context) (opener name : Token) (args : List Value)
    (jump : Option Bytes) (handlers : List Handler) (rest : List Token) :
    evaluateOperands context opener name args jump (handlers.flatMap Handler.tokens ++ rest) =
      shifted (handlers.flatMap Handler.tokens).length
        (evaluateOperands context opener name args jump rest) := by
  induction handlers with
  | nil => simp [shifted, Span.after]
  | cons handler handlers ih =>
      rw [List.flatMap_cons, List.append_assoc, evaluateOperands_handler, ih, shifted_shifted,
        List.length_append]

end Steps

section Agreement

open Expression

/-- An evaluation of tokens agrees with what a tree means: it leaves the same context and comes to
the same result, and after a success only unused handlers stand before the rest. -/
structure Agrees (tokens rest : List Token) (evaluated : Context × Span Outcome)
    (meant : Context × Except Failure Outcome) : Prop where
  context : evaluated.1 = meant.1
  result : evaluated.2.result = meant.2
  left : ∀ outcome, meant.2 = .ok outcome → ∃ handlers : List Handler,
    tokens.drop evaluated.2.length = handlers.flatMap Handler.tokens ++ rest

theorem Agrees.of_alike {tokens rest : List Token} {a b : Context × Span Outcome}
    {meant : Context × Except Failure Outcome} (h : Agrees tokens rest b meant)
    (hab : Alike a b) : Agrees tokens rest a meant := by
  refine ⟨hab.context.trans h.context, hab.result.trans h.result, ?_⟩
  intro outcome hok
  rw [hab.length outcome (h.result.trans hok)]
  exact h.left outcome hok

theorem Agrees.shifted {tokens rest : List Token} {evaluated : Context × Span Outcome}
    {meant : Context × Except Failure Outcome} (h : Agrees tokens rest evaluated meant)
    (front : List Token) :
    Agrees (front ++ tokens) rest (shifted front.length evaluated) meant := by
  refine ⟨h.context, h.result, ?_⟩
  intro outcome hok
  obtain ⟨handlers, hdrop⟩ := h.left outcome hok
  refine ⟨handlers, ?_⟩
  rw [← hdrop]
  exact List.drop_length_add_append evaluated.2.length

/-- The tokens after a call: unused handlers and then the rest. A failure of the call is recovered
from them in the way that is meant. -/
structure Continues (after : Recovery) (tail rest : List Token) : Prop where
  left : ∃ handlers : List Handler, tail = handlers.flatMap Handler.tokens ++ rest
  recovers : ∀ context failure,
    Agrees tail rest (recover context failure tail) (after context failure)

theorem continues_unhandled {rest : List Token} (h : startsHandler rest = false) :
    Continues unhandled rest rest := by
  refine ⟨⟨[], rfl⟩, ?_⟩
  intro context failure
  rw [recover_unhandled h]
  exact ⟨rfl, rfl, fun outcome hok => by cases hok⟩

def Expr.Sound (e : Expr) : Prop :=
  ∀ {after : Recovery} {tail rest : List Token}, Continues after tail rest → ∀ context,
    Agrees (e.tokens ++ tail) rest (Expression.evaluate context (e.tokens ++ tail))
      (e.evaluate after context)

def Call.Sound (call : Call) : Prop :=
  ∀ {after : Recovery} {tail rest : List Token}, Continues after tail rest → ∀ context,
    Agrees (call.tokens ++ tail) rest (Expression.evaluate context (call.tokens ++ tail))
      (call.evaluate after context)

def Handler.Sound (handler : Handler) : Prop :=
  ∀ {after : Recovery} {tail rest : List Token}, Continues after tail rest →
    Continues (handler.recover after) (handler.tokens ++ tail) rest

/-- Where the evaluation of a call stands once its operands have been evaluated: at the closing
bracket, or after it with the failure of an operand. -/
def afterOperands (opener name : Token) (args : List Value) (jump : Option Bytes)
    (operands : Operands) (closer : Token) (rest : List Token) :
    Context × Except Failure (List Value × Option Bytes) → Context × Span Outcome
  | (context, .ok (values, first)) =>
      shifted operands.tokens.length
        (evaluateOperands context opener name (args ++ values) (jump.or first) (closer :: rest))
  | (context, .error failure) =>
      shifted (operands.tokens.length + 1) (recover context failure rest)

def Operands.Sound (operands : Operands) : Prop :=
  ∀ (context : Context) (opener name : Token) (args : List Value) (jump : Option Bytes)
    (closer : Token.Of .functionEnd) (rest : List Token),
    Alike
      (evaluateOperands context opener name args jump (operands.tokens ++ closer.val :: rest))
      (afterOperands opener name args jump operands closer.val rest (operands.evaluate context))

private theorem agrees_single {after : Recovery} {tail rest : List Token} {token : Token}
    {context : Context} {result : Except Failure Outcome} (h : Continues after tail rest)
    (hevaluate : evaluate context ([token] ++ tail) = (context, ⟨1, result⟩)) :
    Agrees ([token] ++ tail) rest (evaluate context ([token] ++ tail)) (context, result) := by
  rw [hevaluate]
  exact ⟨rfl, rfl, fun _ _ => h.left⟩

theorem sound_number (token : Token.Of .number) : (Expr.number token).Sound := by
  intro after tail rest h context
  simp only [Expr.tokens, Expr.evaluate]
  cases hparse : Number.parse? token.val.text with
  | none =>
      refine agrees_single h ?_
      rw [List.singleton_append, evaluate]
      simp only [token.2, hparse]
  | some n =>
      refine agrees_single h ?_
      rw [List.singleton_append, evaluate]
      simp only [token.2, hparse]

theorem sound_text (token : Token.Of .text) : (Expr.text token).Sound := by
  intro after tail rest h context
  refine agrees_single h ?_
  rw [List.singleton_append, evaluate]
  simp only [token.2]

theorem sound_label (token : Token.Of .label) : (Expr.label token).Sound := by
  intro after tail rest h context
  refine agrees_single h ?_
  rw [List.singleton_append, evaluate]
  simp only [token.2]

theorem sound_reference (token : Token.Of .reference) : (Expr.reference token).Sound := by
  intro after tail rest h context
  simp only [Expr.tokens, Expr.evaluate]
  cases hvalue : context.store.value? token.val.text with
  | none =>
      refine agrees_single h ?_
      rw [List.singleton_append, evaluate]
      simp only [token.2, hvalue]
  | some value =>
      refine agrees_single h ?_
      rw [List.singleton_append, evaluate]
      simp only [token.2, hvalue]

theorem sound_nil : Operands.nil.Sound := by
  intro context opener name args jump closer rest
  simp [Operands.tokens, Operands.evaluate, afterOperands, shifted, Span.after, Alike.refl]

/-- The failure of an operand goes to the handler of the call, which is found by counting
brackets. -/
private theorem alike_failed_operand {context failed : Context} {opener name : Token}
    {args : List Value} {jump : Option Bytes} {operands : Operands}
    {closer : Token.Of .functionEnd} {rest tail : List Token} {token : Token} {length : Nat}
    {failure : Failure} (hend : token.type ≠ .functionEnd) (hmarker : token.type ≠ .onFail)
    (htokens : operands.tokens ++ closer.val :: rest = token :: tail)
    (hevaluate : evaluate context (token :: tail) = (failed, ⟨length, .error failure⟩)) :
    Alike (evaluateOperands context opener name args jump (token :: tail))
      (shifted (operands.tokens.length + 1) (recover failed failure rest)) := by
  have hclosing : closingFrom 1 (token :: tail) = some operands.tokens.length := by
    rw [← htokens]
    exact closingFrom_operands operands closer rest
  have hdrop : tail.drop operands.tokens.length = rest := by
    rw [← drop_length_succ operands.tokens closer.val rest, htokens, List.drop_succ_cons]
  rw [evaluateOperands_operand hend hmarker, hevaluate]
  dsimp only
  cases hrecoverable : failure.isRecoverable with
  | true =>
      rw [hclosing]
      dsimp only
      rw [hdrop]
      exact Alike.refl _
  | false =>
      have hruntime : ∀ token cause, failure ≠ .runtime token cause := by
        rintro token cause rfl
        simp [Failure.isRecoverable, Failure.root] at hrecoverable
      rw [recover_of_not_runtime hruntime]
      exact alike_error

private theorem shifted_afterOperands_cons (opener name : Token) (args : List Value)
    (jump : Option Bytes) (operand : Expr) (handler : Handler) (more : Operands)
    (closer : Token) (rest : List Token) (outcome : Outcome) (context : Context) :
    shifted (operand.tokens.length + handler.tokens.length)
        (afterOperands opener name (args ++ [outcome.value]) (jump.or outcome.jump) more closer rest
          (more.evaluate context)) =
      afterOperands opener name args jump (.cons operand handler more) closer rest
        (match more.evaluate context with
        | (context, .error failure) => (context, .error failure)
        | (context, .ok (args, jump)) =>
            (context, .ok (outcome.value :: args, outcome.jump.or jump))) := by
  have hlength : (Operands.cons operand handler more).tokens.length =
      operand.tokens.length + handler.tokens.length + more.tokens.length := by
    simp [Operands.tokens, Nat.add_assoc]
  cases more.evaluate context with
  | mk reached result =>
      cases result with
      | error failure =>
          simp only [afterOperands, shifted_shifted, hlength]
          rfl
      | ok answer =>
          obtain ⟨values, first⟩ := answer
          simp only [afterOperands, shifted_shifted, hlength, List.append_assoc,
            List.singleton_append, Option.or_assoc]

theorem sound_cons {operand : Expr} {handler : Handler} {more : Operands}
    (hoperand : operand.Sound) (hhandler : handler.Sound) (hmore : more.Sound) :
    (Operands.cons operand handler more).Sound := by
  intro context opener name args jump closer rest
  let following := more.tokens ++ closer.val :: rest
  have hcontinues : Continues (handler.recover unhandled) (handler.tokens ++ following) following :=
    hhandler (continues_unhandled (startsHandler_operands more closer rest))
  have hagrees := hoperand hcontinues context
  have htokens : (Operands.cons operand handler more).tokens ++ closer.val :: rest =
      operand.tokens ++ (handler.tokens ++ following) := by
    simp [Operands.tokens, following]
  obtain ⟨token, tail, hoperandTokens, hmarker, hend⟩ := operand.tokens_eq_cons
  have hcons : operand.tokens ++ (handler.tokens ++ following) =
      token :: (tail ++ (handler.tokens ++ following)) := by
    rw [hoperandTokens, List.cons_append]
  have hpos := length_evaluate_pos context token (tail ++ (handler.tokens ++ following))
  rw [htokens, hcons]
  rw [hcons] at hagrees
  obtain ⟨hcontext, hresult, hleft⟩ := hagrees
  rw [Operands.evaluate]
  generalize hevaluated :
    evaluate context (token :: (tail ++ (handler.tokens ++ following))) = evaluated
    at hcontext hresult hleft hpos
  obtain ⟨reached, length, result⟩ := evaluated
  cases hmeant : operand.evaluate (handler.recover unhandled) context with
  | mk meantContext meantResult =>
      rw [hmeant] at hcontext hresult hleft
      dsimp only at hcontext hresult hleft hpos
      subst hcontext hresult
      cases result with
      | error failure =>
          dsimp only
          exact alike_failed_operand hend hmarker (htokens.trans hcons) hevaluated
      | ok outcome =>
          obtain ⟨handlers, hdrop⟩ := hleft outcome rfl
          have hrest : (tail ++ (handler.tokens ++ following)).drop (length - 1) =
              handlers.flatMap Handler.tokens ++ following := by
            rw [← hdrop, ← List.drop_succ_cons (a := token), Nat.sub_add_cancel hpos]
          have hlength : length + (handlers.flatMap Handler.tokens).length =
              operand.tokens.length + handler.tokens.length := by
            have hlengths := congrArg List.length hdrop
            rw [← hcons] at hlengths
            simp only [List.length_drop, List.length_append, following, List.length_cons]
              at hlengths
            omega
          have hstep : evaluateOperands context opener name args jump
                (token :: (tail ++ (handler.tokens ++ following))) =
              shifted (operand.tokens.length + handler.tokens.length)
                (evaluateOperands reached opener name (args ++ [outcome.value])
                  (jump.or outcome.jump) following) := by
            rw [evaluateOperands_operand hend hmarker, hevaluated]
            dsimp only
            rw [hrest, evaluateOperands_handlers, shifted_shifted, hlength]
          have hrestOperands := (hmore reached opener name (args ++ [outcome.value])
            (jump.or outcome.jump) closer rest).shifted
              (operand.tokens.length + handler.tokens.length)
          rw [hstep]
          refine hrestOperands.trans ?_
          rw [shifted_afterOperands_cons]
          exact Alike.refl _

/-- Where the evaluation of a call stands once the function has been called or an operand has
failed: after the closing bracket, `count` tokens from its start. -/
def afterDispatch (count : Nat) (rest : List Token) :
    Context × Except Failure Outcome → Context × Span Outcome
  | (context, .ok outcome) => (context, ⟨count, .ok outcome⟩)
  | (context, .error failure) => shifted count (recover context failure rest)

theorem alike_call {operands : Operands} (hoperands : operands.Sound) (context : Context)
    (opener : Token.Of .functionStart) (name : Token.Of .plain)
    (closer : Token.Of .functionEnd) (rest : List Token) :
    Alike
      (evaluate context (opener.val :: name.val :: (operands.tokens ++ closer.val :: rest)))
      (afterDispatch (operands.tokens.length + 3) rest
        (dispatch name.val (operands.evaluate context))) := by
  have hcount : 2 + (operands.tokens.length + 1) = operands.tokens.length + 3 := by omega
  rw [evaluate_call]
  refine ((hoperands context opener.val name.val [] none closer rest).shifted 2).trans ?_
  cases operands.evaluate context with
  | mk reached result =>
      cases result with
      | error failure =>
          simp only [afterOperands, shifted_shifted, dispatch, afterDispatch, hcount]
          exact Alike.refl _
      | ok answer =>
          obtain ⟨args, jump⟩ := answer
          simp only [afterOperands, List.nil_append, Option.none_or, dispatch]
          rw [evaluateOperands_end]
          cases reached.call name.val args with
          | mk called result =>
              cases result with
              | error failure =>
                  simp only [shifted_shifted, afterDispatch, hcount]
                  exact Alike.refl _
              | ok outcome =>
                  simp only [shifted, Span.after, afterDispatch, hcount]
                  exact Alike.refl _

theorem sound_call {opener : Token.Of .functionStart} {name : Token.Of .plain}
    {operands : Operands} {closer : Token.Of .functionEnd} {handler : Handler}
    (hoperands : operands.Sound) (hhandler : handler.Sound) :
    (Call.mk opener name operands closer handler).Sound := by
  intro after tail rest h context
  have hcontinues := hhandler h
  let front := opener.val :: name.val :: (operands.tokens ++ [closer.val])
  have hfront : front.length = operands.tokens.length + 3 := by simp [front]
  have htokens : (Call.mk opener name operands closer handler).tokens ++ tail =
      front ++ (handler.tokens ++ tail) := by
    simp [Call.tokens, front]
  have halike := alike_call hoperands context opener name closer (handler.tokens ++ tail)
  have hflat : opener.val :: name.val ::
        (operands.tokens ++ closer.val :: (handler.tokens ++ tail)) =
      front ++ (handler.tokens ++ tail) := by
    simp [front]
  rw [hflat, ← hfront] at halike
  rw [htokens, Call.evaluate]
  refine Agrees.of_alike ?_ halike
  cases dispatch name.val (operands.evaluate context) with
  | mk reached result =>
      cases result with
      | error failure => exact (hcontinues.recovers reached failure).shifted front
      | ok outcome =>
          refine ⟨rfl, rfl, fun _ _ => ?_⟩
          obtain ⟨handlers, hleft⟩ := hcontinues.left
          exact ⟨handlers, by simp [afterDispatch, hleft]⟩

theorem sound_none : Handler.none.Sound := by
  intro after tail rest h
  simpa [Handler.tokens, Handler.recover] using h

/-- A handler in front of the tokens after a call. It is enough to know what it does with a failure
of the execution: no handler takes over any other failure. -/
private theorem continues_takeOver {after : Recovery} {tail rest : List Token}
    (h : Continues after tail rest) (handler : Handler)
    {goOn : Context → Context × Except Failure Outcome}
    (hruntime : ∀ context token cause,
      Agrees (handler.tokens ++ tail) rest
        (recover context (.runtime token cause) (handler.tokens ++ tail))
        (goOn (context.setLastError cause.message))) :
    Continues (takeOver goOn) (handler.tokens ++ tail) rest := by
  obtain ⟨handlers, hleft⟩ := h.left
  refine ⟨⟨handler :: handlers, by simp [hleft]⟩, ?_⟩
  intro context failure
  cases failure with
  | runtime token cause => exact hruntime context token cause
  | _ =>
      rw [recover_of_not_runtime (by simp)]
      exact ⟨rfl, rfl, fun outcome hok => by cases hok⟩

theorem sound_label_handler (marker : Token.Of .onFail) (label : Token.Of .label) :
    (Handler.label marker label).Sound := by
  intro after tail rest h
  rw [Handler.recover]
  refine continues_takeOver h (.label marker label) ?_
  intro context token cause
  simp only [Handler.tokens, List.cons_append, List.nil_append]
  rw [recover_label]
  exact ⟨rfl, rfl, fun _ _ => h.left⟩

theorem sound_call_handler (marker : Token.Of .onFail) {call : Call} (hcall : call.Sound) :
    (Handler.call marker call).Sound := by
  intro after tail rest h
  rw [Handler.recover]
  refine continues_takeOver h (.call marker call) ?_
  intro context token cause
  simp only [Handler.tokens, List.cons_append]
  rw [recover_call]
  exact (hcall h (context.setLastError cause.message)).shifted [marker.val]

mutual

theorem Expr.sound : (e : Expr) → e.Sound
  | .number token => sound_number token
  | .text token => sound_text token
  | .label token => sound_label token
  | .reference token => sound_reference token
  | .call call => call.sound

theorem Call.sound : (call : Call) → call.Sound
  | ⟨_, _, operands, _, handler⟩ => sound_call operands.sound handler.sound

theorem Operands.sound : (operands : Operands) → operands.Sound
  | .nil => sound_nil
  | .cons operand handler more => sound_cons operand.sound handler.sound more.sound

theorem Handler.sound : (handler : Handler) → handler.Sound
  | .none => sound_none
  | .label marker label => sound_label_handler marker label
  | .call marker call => sound_call_handler marker call.sound

end

/-- Evaluating an expression straight from its tokens is evaluating its tree: in every context, and
before any tokens that do not begin with a handler, both leave the same store and the same streams,
with the same reads and writes in the same order, and come to the same outcome or the same
failure. -/
theorem evaluate_tokens_append (e : Expr) (context : Context) (rest : List Token)
    (hrest : startsHandler rest = false) :
    ((evaluate context (e.tokens ++ rest)).1, (evaluate context (e.tokens ++ rest)).2.result) =
      e.evaluate unhandled context := by
  have hagrees := e.sound (continues_unhandled hrest) context
  exact Prod.ext hagrees.context hagrees.result

/-- The tree of `(+ 1 (int "x") -> (+ 2) -> !never)`: the text is no number, and the handler of the
call that finds this out has a handler of its own, which is left unused. -/
def recoveringSum : Expr :=
  .call ⟨⟨.ofWord (utf8 "(") 2 1, by decide⟩, ⟨.ofWord (utf8 "+") 2 2, by decide⟩,
    .cons (.number ⟨.ofWord (utf8 "1") 2 4, by decide⟩) .none
      (.cons
        (.call ⟨⟨.ofWord (utf8 "(") 2 6, by decide⟩, ⟨.ofWord (utf8 "int") 2 7, by decide⟩,
          .cons (.text ⟨.ofWord (utf8 "\"x\"") 2 11, by decide⟩) .none .nil,
          ⟨.ofWord (utf8 ")") 2 14, by decide⟩,
          .call ⟨.ofWord (utf8 "->") 2 16, by decide⟩
            ⟨⟨.ofWord (utf8 "(") 2 19, by decide⟩, ⟨.ofWord (utf8 "+") 2 20, by decide⟩,
              .cons (.number ⟨.ofWord (utf8 "2") 2 22, by decide⟩) .none .nil,
              ⟨.ofWord (utf8 ")") 2 23, by decide⟩,
              .label ⟨.ofWord (utf8 "->") 2 25, by decide⟩
                ⟨.ofWord (utf8 "!never") 2 28, by decide⟩⟩⟩)
        .none .nil),
    ⟨.ofWord (utf8 ")") 2 34, by decide⟩, .none⟩

theorem evaluate_tokens_append_recoveringSum :
    startsHandler [.ofWord (utf8 "5") 2 36] = false ∧
      (evaluate {} (recoveringSum.tokens ++ [.ofWord (utf8 "5") 2 36])).2.result =
        .ok { value := .nat 3 } := by
  have hrest : startsHandler [.ofWord (utf8 "5") 2 36] = false := by decide
  have hevaluate := evaluate_tokens_append recoveringSum {} _ hrest
  exact ⟨hrest, (congrArg Prod.snd hevaluate).trans rfl⟩

end Agreement

end Grammar

end LineScript
