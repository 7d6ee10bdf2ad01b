import LineScript.Builtin

/-!
Evaluating expressions straight from their tokens.

    expression = NUMBER | TEXT | LABEL | REFERENCE | call
    call       = "(" PLAIN (expression handler?)* ")" handler?
    handler    = "->" (LABEL | call)

There is no tree between the tokens and their meaning: an evaluation tells how many tokens it spans,
so that whoever asked for it can go on after them. The handler of a call that succeeds is left to be
passed over; the handler of a call that fails belongs to its span.
-/

namespace LineScript

structure Span (α : Type) where
  length : Nat
  result : Except Failure α

def Span.after {α : Type} (count : Nat) (span : Span α) : Span α :=
  { span with length := count + span.length }

namespace Expression

/-- The index of the bracket after which no bracket is open, when `depth` of them are at the start.
A closing bracket too many counts against those that open later. -/
def closingFrom (depth : Int) : List Token → Option Nat
  | [] => none
  | token :: rest =>
      match token.type with
      | .functionStart => (closingFrom (depth + 1) rest).map (· + 1)
      | .functionEnd =>
          if depth = 1 then some 0 else (closingFrom (depth - 1) rest).map (· + 1)
      | _ => (closingFrom depth rest).map (· + 1)

def closing? (tokens : List Token) : Option Nat :=
  closingFrom 0 tokens

/-- Passes over a handler without evaluating it; `marker` is its arrow and comes before the given
tokens. -/
def skipHandler (marker : Token) : List Token → Span Unit
  | [] => ⟨1, .error (.malformed marker .missingHandler)⟩
  | token :: rest =>
      match token.type with
      | .label => ⟨2, .ok ()⟩
      | .functionStart =>
          match closingFrom 1 rest with
          | some last => ⟨last + 3, .ok ()⟩
          | none => ⟨rest.length + 2, .error (.malformed token .abruptEnd)⟩
      | _ => ⟨2, .error (.malformed token .badHandler)⟩

mutual

def evaluate (context : Context) : List Token → Context × Span Outcome
  | [] => (context, ⟨0, .error (.malformed none .missingExpression)⟩)
  | token :: rest =>
      match token.type with
      | .functionStart =>
          let (context, span) := evaluateCall context token rest
          (context, span.after 1)
      | .reference =>
          match context.store.value? token.text with
          | some value => (context, ⟨1, .ok { value }⟩)
          | none => (context, ⟨1, .error (.runtime token (.undefinedVariable token.text))⟩)
      | .number =>
          match Number.parse? token.text with
          | some n => (context, ⟨1, .ok { value := .num n }⟩)
          | none => (context, ⟨1, .error (.malformed token .invalidNumber)⟩)
      | .text => (context, ⟨1, .ok { value := .txt token.text }⟩)
      | .label => (context, ⟨1, .ok { value := .lab token.text }⟩)
      | _ => (context, ⟨1, .error (.malformed token .invalidToken)⟩)
termination_by tokens => 2 * tokens.length

def evaluateCall (context : Context) (opener : Token) : List Token → Context × Span Outcome
  | [] => (context, ⟨0, .error (.malformed opener .abruptEnd)⟩)
  | name :: rest =>
      match name.type with
      | .plain =>
          let (context, span) := evaluateOperands context opener name [] none rest
          (context, span.after 1)
      | .functionEnd => (context, ⟨1, .error (.malformed name .missingFunctionName)⟩)
      | _ => (context, ⟨1, .error (.malformed name (.badFunctionName name.lexeme))⟩)
termination_by tokens => 2 * tokens.length

/-- Evaluates what is left of the operands of a call and then the call itself; `args` are the values
of the operands before and `jump` is the first place to go on at that one of them asked for. -/
def evaluateOperands (context : Context) (opener name : Token) (args : List Value)
    (jump : Option Bytes) : List Token → Context × Span Outcome
  | [] => (context, ⟨0, .error (.malformed opener .abruptEnd)⟩)
  | token :: rest =>
      match token.type with
      | .functionEnd =>
          match context.call name args with
          | (context, .ok outcome) => (context, ⟨1, .ok (outcome.orJump jump)⟩)
          | (context, .error failure) =>
              let (context, span) := recover context failure rest
              (context, span.after 1)
      | .onFail =>
          match skipHandler token rest with
          | ⟨length, .ok ()⟩ =>
              let (context, span) :=
                evaluateOperands context opener name args jump (rest.drop (length - 1))
              (context, span.after length)
          | ⟨length, .error failure⟩ => (context, ⟨length, .error failure⟩)
      | _ =>
          match evaluate context (token :: rest) with
          | (context, ⟨length, .ok outcome⟩) =>
              let (context, span) :=
                evaluateOperands context opener name (args ++ [outcome.value])
                  (jump.or outcome.jump) (rest.drop (length - 1))
              (context, span.after length)
          | (context, ⟨length, .error failure⟩) =>
              match failure.isRecoverable, closingFrom 1 (token :: rest) with
              | true, some last =>
                  let (context, span) := recover context failure (rest.drop last)
                  (context, span.after (last + 1))
              | _, _ => (context, ⟨length, .error failure⟩)
termination_by tokens => 2 * tokens.length + 1

/-- Lets the handler at the start of the tokens, which follow the closing bracket of a call that
failed, take over. Without a handler the failure stays. -/
def recover (context : Context) (failure : Failure) : List Token → Context × Span Outcome
  | [] => (context, ⟨0, .error failure⟩)
  | marker :: rest =>
      match marker.type, failure with
      | .onFail, .runtime _ cause =>
          let context := context.setLastError cause.message
          match rest with
          | [] => (context, ⟨1, .error (.malformed marker .missingHandler)⟩)
          | token :: rest =>
              match token.type with
              | .label => (context, ⟨2, .ok (.jumpTo (.nat 0) token.text)⟩)
              | .functionStart =>
                  let (context, span) := evaluate context (token :: rest)
                  (context, span.after 1)
              | _ => (context, ⟨2, .error (.malformed token .badHandler)⟩)
      | _, _ => (context, ⟨0, .error failure⟩)
termination_by tokens => 2 * tokens.length

end

end Expression

end LineScript
