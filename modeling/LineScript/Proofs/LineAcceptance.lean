import LineScript.Execution
import LineScript.Proofs.Numerals
import LineScript.Proofs.TreeEvaluation

/-!
Which statements of the grammar are accepted.

    statement = (DATA_TYPE? PLAIN ":")? expression

Evaluating an expression of the grammar never finds it malformed, whatever fails and whichever
handlers run. What is left to refuse is the end of the statement: after a success the handlers that
were not used stand there, and only one of them is passed over. So a statement is refused exactly
when its expression succeeds and leaves two handlers or more unused.
-/

namespace LineScript

namespace Grammar

inductive Line where
  | bare (value : Expr)
  | assign (name : Token.Of .plain) (colon : Token.Of .assign) (value : Expr)
  | declare (kind : Kind) (type : Token.Of (.dataType kind)) (name : Token.Of .plain)
      (colon : Token.Of .assign) (value : Expr)

namespace Line

def value : Line → Expr
  | bare value => value
  | assign _ _ value => value
  | declare _ _ _ _ value => value

def tokens : Line → List Token
  | bare value => value.tokens
  | assign name colon value => name.val :: colon.val :: value.tokens
  | declare _ type name colon value => type.val :: name.val :: colon.val :: value.tokens

def target : Line → Option Target
  | bare _ => none
  | assign name _ _ => some { name := name.val.text }
  | declare kind _ name _ _ => some { name := name.val.text, kind }

def start : Line → Nat
  | bare _ => 0
  | assign .. => 2
  | declare .. => 3

theorem drop_start (line : Line) : line.tokens.drop line.start = line.value.tokens := by
  cases line <;> rfl

end Line

mutual

theorem Expr.type_ne_assign (e : Expr) : ∀ token ∈ e.tokens, token.type ≠ .assign := by
  cases e with
  | number token => simp [Expr.tokens, token.2]
  | text token => simp [Expr.tokens, token.2]
  | label token => simp [Expr.tokens, token.2]
  | reference token => simp [Expr.tokens, token.2]
  | call call => exact call.type_ne_assign

theorem Call.type_ne_assign (call : Call) : ∀ token ∈ call.tokens, token.type ≠ .assign := by
  obtain ⟨opener, name, operands, closer, handler⟩ := call
  intro token hmem
  simp only [Call.tokens, List.mem_cons, List.mem_append] at hmem
  rcases hmem with rfl | rfl | hmem | rfl | hmem
  · simp [opener.2]
  · simp [name.2]
  · exact operands.type_ne_assign token hmem
  · simp [closer.2]
  · exact handler.type_ne_assign token hmem

theorem Operands.type_ne_assign (operands : Operands) :
    ∀ token ∈ operands.tokens, token.type ≠ .assign := by
  cases operands with
  | nil => simp [Operands.tokens]
  | cons operand handler rest =>
      intro token hmem
      simp only [Operands.tokens, List.mem_append] at hmem
      rcases hmem with hmem | hmem | hmem
      · exact operand.type_ne_assign token hmem
      · exact handler.type_ne_assign token hmem
      · exact rest.type_ne_assign token hmem

theorem Handler.type_ne_assign (handler : Handler) :
    ∀ token ∈ handler.tokens, token.type ≠ .assign := by
  cases handler with
  | none => simp [Handler.tokens]
  | label marker label => simp [Handler.tokens, marker.2, label.2]
  | call marker call =>
      intro token hmem
      simp only [Handler.tokens, List.mem_cons] at hmem
      rcases hmem with rfl | hmem
      · simp [marker.2]
      · exact call.type_ne_assign token hmem

end

theorem Line.split_tokens (line : Line) :
    Target.split line.tokens = .ok (line.target, line.start) := by
  cases line with
  | bare value =>
      have hnone : value.tokens.findIdx? (·.type = .assign) = none := by
        rw [List.findIdx?_eq_none_iff]
        intro token hmem
        simpa using value.type_ne_assign token hmem
      simp only [Line.tokens, Target.split, hnone, Line.target, Line.start]
  | assign name colon value =>
      simp [Line.tokens, Target.split, List.findIdx?_cons, name.2, colon.2, Line.target, Line.start]
  | declare kind type name colon value =>
      simp [Line.tokens, Target.split, List.findIdx?_cons, type.2, name.2, colon.2, Line.target,
        Line.start]

mutual

/-- The handlers that stand unused after a call that succeeds, by itself or through a handler. -/
def Call.unused (context : Context) : Call → Handler
  | ⟨_, name, operands, _, handler⟩ =>
      match dispatch name.val (operands.evaluate context) with
      | (_, .ok _) => handler
      | (context, .error failure) => handler.unusedAfter context failure

def Handler.unusedAfter (context : Context) (failure : Failure) : Handler → Handler
  | .none => .none
  | .label _ _ => .none
  | .call _ call =>
      match failure with
      | .runtime _ cause => call.unused (context.setLastError cause.message)
      | _ => .none

end

def Expr.unused (context : Context) : Expr → Handler
  | .number _ | .text _ | .label _ | .reference _ => .none
  | .call called => called.unused context

private theorem drop_call (opener name : Token) (operands : Operands) (closer : Token)
    (tail : List Token) (count : Nat) :
    (opener :: name :: (operands.tokens ++ closer :: tail)).drop
        (operands.tokens.length + 3 + count) = tail.drop count := by
  have hsplit : opener :: name :: (operands.tokens ++ closer :: tail) =
      (opener :: name :: (operands.tokens ++ [closer])) ++ tail := by simp
  have hlength : operands.tokens.length + 3 =
      (opener :: name :: (operands.tokens ++ [closer])).length := by simp
  rw [hsplit, hlength]
  exact List.drop_length_add_append count

mutual

/-- A call that succeeds stops before the handlers that it leaves unused. -/
theorem Call.drop_length_evaluate {rest : List Token} (hrest : startsHandler rest = false)
    (call : Call) (context : Context) {outcome : Outcome}
    (hok : (call.evaluate unhandled context).2 = .ok outcome) :
    (call.tokens ++ rest).drop (Expression.evaluate context (call.tokens ++ rest)).2.length =
      (call.unused context).tokens ++ rest := by
  match call with
  | ⟨opener, name, operands, closer, handler⟩ =>
      have halike := alike_call operands.sound context opener name closer (handler.tokens ++ rest)
      rw [Call.evaluate] at hok
      rw [Call.unused]
      simp only [Call.tokens, List.cons_append, List.append_assoc]
      cases hdispatch : dispatch name.val (operands.evaluate context) with
      | mk reached result =>
          rw [hdispatch] at hok halike
          cases result with
          | ok value =>
              rw [halike.length value rfl]
              exact drop_call opener.val name.val operands closer.val _ 0
          | error failure =>
              have hrecovers := (handler.sound (continues_unhandled hrest)).recovers reached failure
              rw [halike.length outcome (hrecovers.result.trans hok)]
              exact (drop_call opener.val name.val operands closer.val _ _).trans
                (handler.drop_length_recover hrest reached failure hok)

theorem Handler.drop_length_recover {rest : List Token} (hrest : startsHandler rest = false)
    (handler : Handler) (context : Context) (failure : Failure) {outcome : Outcome}
    (hok : (handler.recover unhandled context failure).2 = .ok outcome) :
    (handler.tokens ++ rest).drop
        (Expression.recover context failure (handler.tokens ++ rest)).2.length =
      (handler.unusedAfter context failure).tokens ++ rest := by
  match handler with
  | .none => cases hok
  | .label marker label =>
      cases failure with
      | runtime token cause =>
          simp only [Handler.tokens, List.cons_append, List.nil_append, recover_label]
          rfl
      | _ => cases hok
  | .call marker call =>
      cases failure with
      | runtime token cause =>
          have hcall := call.drop_length_evaluate hrest (context.setLastError cause.message) hok
          simp only [Handler.tokens, List.cons_append, recover_call, shifted, Span.after]
          rw [Nat.add_comm, List.drop_succ_cons]
          exact hcall
      | _ => cases hok

end

private theorem drop_length_evaluate_single (context : Context) (token : Token) :
    [token].drop (Expression.evaluate context [token]).2.length = [] := by
  apply List.drop_eq_nil_of_le
  exact length_evaluate_pos context token []

theorem Expr.drop_length_evaluate (e : Expr) (context : Context) {outcome : Outcome}
    (hok : (e.evaluate unhandled context).2 = .ok outcome) :
    e.tokens.drop (Expression.evaluate context e.tokens).2.length =
      (e.unused context).tokens := by
  cases e with
  | number token => exact drop_length_evaluate_single context token.val
  | text token => exact drop_length_evaluate_single context token.val
  | label token => exact drop_length_evaluate_single context token.val
  | reference token => exact drop_length_evaluate_single context token.val
  | call call =>
      have hrest : startsHandler [] = false := rfl
      have hcall := call.drop_length_evaluate hrest context hok
      rwa [List.append_nil, List.append_nil] at hcall

def WellFormed {α : Type} (result : Except Failure α) : Prop :=
  ∀ token cause, result ≠ .error (.malformed token cause)

theorem exists_malformed_iff {α : Type} {result : Except Failure α} :
    (∃ token cause, result = .error (.malformed token cause)) ↔ ¬ WellFormed result := by
  simp [WellFormed]

theorem wellFormed_ok {α : Type} (a : α) : WellFormed (.ok a) := by
  intro token cause h
  cases h

theorem wellFormed_error_iff {α : Type} {failure : Failure} :
    WellFormed (.error failure : Except Failure α) ↔
      ∀ token cause, failure ≠ .malformed token cause := by
  simp [WellFormed]

/-- Every number among the tokens can be read. -/
def NumbersRead (tokens : List Token) : Prop :=
  ∀ token ∈ tokens, token.type = .number → (Number.parse? token.text).isSome

theorem numbersRead_ofWord {tokens : List Token}
    (h : ∀ token ∈ tokens, token = .ofWord token.lexeme token.line token.column) :
    NumbersRead tokens := by
  intro token hmem htype
  rw [h token hmem] at htype ⊢
  exact Token.isSome_parse?_ofWord htype

theorem wellFormed_call (context : Context) (token : Token) (args : List Value) :
    WellFormed (context.call token args).2 := by
  intro culprit cause h
  rw [Context.call] at h
  split at h
  · cases h
  · split at h
    · cases h
    · dsimp only at h
      split at h
      · cases h
      · next fault _ => cases fault <;> cases h

theorem NumbersRead.of_subset {part tokens : List Token} (h : NumbersRead tokens)
    (hsubset : part ⊆ tokens) : NumbersRead part :=
  fun token hmem => h token (hsubset hmem)

theorem wellFormed_dispatch (name : Token)
    {evaluated : Context × Except Failure (List Value × Option Bytes)}
    (h : WellFormed evaluated.2) : WellFormed (dispatch name evaluated).2 := by
  obtain ⟨context, result⟩ := evaluated
  intro token cause hmalformed
  cases result with
  | error failure =>
      cases hmalformed
      exact h token cause rfl
  | ok answer =>
      obtain ⟨args, jump⟩ := answer
      have hcall := wellFormed_call context name args
      rw [dispatch] at hmalformed
      cases hresult : context.call name args with
      | mk called result =>
          rw [hresult] at hmalformed hcall
          cases result with
          | ok outcome => cases hmalformed
          | error failure => exact hcall token cause hmalformed

def Recovery.WellFormed (after : Recovery) : Prop :=
  ∀ context failure, (∀ token cause, failure ≠ .malformed token cause) →
    Grammar.WellFormed (after context failure).2

theorem unhandled_wellFormed : Recovery.WellFormed unhandled := by
  intro context failure hfailure token cause h
  cases h
  exact hfailure token cause rfl

theorem takeOver_wellFormed {goOn : Context → Context × Except Failure Outcome}
    (h : ∀ context, WellFormed (goOn context).2) : Recovery.WellFormed (takeOver goOn) := by
  intro context failure hfailure
  cases failure with
  | runtime token cause => exact h _
  | _ => exact unhandled_wellFormed context _ hfailure

mutual

theorem Expr.wellFormed (e : Expr) (hnumbers : NumbersRead e.tokens) {after : Recovery}
    (hafter : Recovery.WellFormed after) (context : Context) :
    WellFormed (e.evaluate after context).2 := by
  cases e with
  | number token =>
      have hread := hnumbers token.val (by simp [Expr.tokens]) token.2
      obtain ⟨n, hn⟩ := Option.isSome_iff_exists.mp hread
      simp only [Expr.evaluate, hn]
      intro culprit cause h
      cases h
  | text token => intro culprit cause h; cases h
  | label token => intro culprit cause h; cases h
  | reference token =>
      rw [Expr.evaluate]
      split <;> (intro culprit cause h; cases h)
  | call call => exact call.wellFormed hnumbers hafter context

theorem Call.wellFormed (call : Call) (hnumbers : NumbersRead call.tokens) {after : Recovery}
    (hafter : Recovery.WellFormed after) (context : Context) :
    WellFormed (call.evaluate after context).2 := by
  match call with
  | ⟨opener, name, operands, closer, handler⟩ =>
      have hoperands := operands.wellFormed
        (hnumbers.of_subset (by intro token hmem; simp [Call.tokens, hmem])) context
      have hdispatch := wellFormed_dispatch name.val hoperands
      have hhandler := handler.wellFormed
        (hnumbers.of_subset (by intro token hmem; simp [Call.tokens, hmem])) hafter
      rw [Call.evaluate]
      cases hresult : dispatch name.val (operands.evaluate context) with
      | mk reached result =>
          rw [hresult] at hdispatch
          cases result with
          | ok outcome => exact hdispatch
          | error failure =>
              refine hhandler reached failure ?_
              rintro token cause rfl
              exact hdispatch token cause rfl

theorem Operands.wellFormed (operands : Operands) (hnumbers : NumbersRead operands.tokens)
    (context : Context) : WellFormed (operands.evaluate context).2 := by
  match operands with
  | .nil => intro token cause h; cases h
  | .cons operand handler rest =>
      have hhandler := handler.wellFormed
        (hnumbers.of_subset (by intro token hmem; simp [Operands.tokens, hmem]))
        unhandled_wellFormed
      have hoperand := operand.wellFormed
        (hnumbers.of_subset (by intro token hmem; simp [Operands.tokens, hmem])) hhandler context
      have hrest := rest.wellFormed
        (hnumbers.of_subset (by intro token hmem; simp [Operands.tokens, hmem]))
      intro token cause h
      rw [Operands.evaluate] at h
      split at h
      · next reached failure hfailed =>
          rw [hfailed] at hoperand
          cases h
          exact hoperand token cause rfl
      · next reached outcome _ =>
          split at h
          · next failed failure hfailed =>
              have hrestFailed := hrest reached
              rw [hfailed] at hrestFailed
              cases h
              exact hrestFailed token cause rfl
          · cases h

theorem Handler.wellFormed (handler : Handler) (hnumbers : NumbersRead handler.tokens)
    {after : Recovery} (hafter : Recovery.WellFormed after) :
    Recovery.WellFormed (handler.recover after) := by
  match handler with
  | .none => exact hafter
  | .label marker label =>
      rw [Handler.recover]
      exact takeOver_wellFormed fun context token cause h => by cases h
  | .call marker call =>
      have hcall := call.wellFormed
        (hnumbers.of_subset (by intro token hmem; simp [Handler.tokens, hmem])) hafter
      rw [Handler.recover]
      exact takeOver_wellFormed hcall

end

/-- Only one handler is passed over at the end of a statement. -/
theorem wellFormed_checkEnd_iff (handler : Handler) :
    WellFormed (Statement.checkEnd handler.tokens) ↔ handler.length < 2 := by
  match handler with
  | .none => exact ⟨fun _ => by decide, fun _ token cause h => by cases h⟩
  | .label marker label =>
      simp only [Handler.tokens, Statement.checkEnd, marker.2, skipHandler_label]
      exact ⟨fun _ => Nat.lt_succ_self 1, fun _ token cause h => by cases h⟩
  | .call marker ⟨opener, name, operands, closer, inner⟩ =>
      simp only [Handler.tokens, Call.tokens, Statement.checkEnd, marker.2, skipHandler_call,
        Handler.length]
      have hdrop : (opener.val :: name.val :: (operands.tokens ++ closer.val :: inner.tokens)).drop
          (operands.tokens.length + 4 - 1) = inner.tokens :=
        drop_call opener.val name.val operands closer.val inner.tokens 0
      rw [hdrop]
      cases inner with
      | none => exact ⟨fun _ => Nat.lt_succ_self 1, fun _ token cause h => by cases h⟩
      | label marker label =>
          exact ⟨fun h => absurd rfl (h _ _), fun h => absurd h (by simp [Handler.length])⟩
      | call marker called =>
          obtain ⟨_, _, _, _, _⟩ := called
          exact ⟨fun h => absurd rfl (h _ _), fun h => absurd h (by simp [Handler.length])⟩

theorem execute_line (config : Config) (context : Context) {statement : Statement} {line : Line}
    (htokens : statement.tokens = line.tokens) :
    statement.execute config context =
      match line.value.evaluate unhandled (statement.announce config context) with
      | (reached, .error failure) => (reached, .error failure)
      | (reached, .ok outcome) =>
          match Statement.checkEnd
            (line.value.unused (statement.announce config context)).tokens with
          | .error failure => (reached, .error failure)
          | .ok () =>
              match Statement.deliver config reached statement line.target outcome.value with
              | (delivered, .error failure) => (delivered, .error failure)
              | (delivered, .ok ()) => (delivered, .ok outcome.jump) := by
  have hrest : startsHandler [] = false := rfl
  have hsound := line.value.sound (continues_unhandled hrest) (statement.announce config context)
  have hleft := fun outcome => @Expr.drop_length_evaluate line.value
    (statement.announce config context) outcome
  obtain ⟨token, rest, hvalue, -, -⟩ := line.value.tokens_eq_cons
  rw [List.append_nil] at hsound
  rw [hvalue] at hsound hleft
  rw [Statement.execute]
  simp only [htokens, line.split_tokens, line.drop_start, hvalue]
  generalize Expression.evaluate (statement.announce config context) (token :: rest) = evaluated
    at hsound hleft ⊢
  obtain ⟨reached, length, result⟩ := evaluated
  cases hmeant : line.value.evaluate unhandled (statement.announce config context) with
  | mk meantContext meantResult =>
      rw [hmeant] at hsound hleft
      obtain ⟨hcontext, hresult, -⟩ := hsound
      dsimp only at hcontext hresult hleft
      subst hcontext hresult
      cases result with
      | error failure => rfl
      | ok outcome =>
          have hend := hleft outcome rfl
          dsimp only
          generalize (token :: rest).drop length = left at hend ⊢
          subst hend
          rfl

theorem wellFormed_deliver (config : Config) (context : Context) (statement : Statement)
    (target : Option Target) (value : Value) :
    WellFormed (Statement.deliver config context statement target value).2 := by
  intro token cause h
  cases target with
  | none =>
      rw [Statement.deliver] at h
      split at h <;> cases h
  | some target =>
      rw [Statement.deliver] at h
      split at h <;> cases h

theorem wellFormed_execute_iff (config : Config) (context : Context) {statement : Statement}
    {line : Line} (htokens : statement.tokens = line.tokens)
    (hnumbers : NumbersRead line.tokens) :
    WellFormed (statement.execute config context).2 ↔
      ∀ outcome,
        (line.value.evaluate unhandled (statement.announce config context)).2 = .ok outcome →
        (line.value.unused (statement.announce config context)).length < 2 := by
  have hvalue : NumbersRead line.value.tokens := by
    rw [← line.drop_start]
    exact hnumbers.of_subset (List.drop_subset _ _)
  have hevaluate := line.value.wellFormed hvalue unhandled_wellFormed
    (statement.announce config context)
  have hend := wellFormed_checkEnd_iff (line.value.unused (statement.announce config context))
  rw [execute_line config context htokens]
  split
  · next reached failure hmeant =>
      rw [hmeant] at hevaluate ⊢
      constructor
      · intro _ outcome hok
        cases hok
      · intro _
        exact wellFormed_error_iff.mpr (wellFormed_error_iff.mp hevaluate)
  · next reached outcome hmeant =>
      rw [hmeant, ← hend]
      split
      · next failure hcheck =>
          rw [hcheck, wellFormed_error_iff, wellFormed_error_iff]
          exact ⟨fun h _ _ => h, fun h => h outcome rfl⟩
      · next hcheck =>
          have hdeliver := wellFormed_deliver config reached statement line.target outcome.value
          rw [hcheck]
          refine ⟨fun _ _ _ => wellFormed_ok (), fun _ => ?_⟩
          split
          · next hfailed =>
              rw [hfailed] at hdeliver
              exact wellFormed_error_iff.mpr (wellFormed_error_iff.mp hdeliver)
          · exact wellFormed_ok _

/-- A statement of the grammar is refused as malformed exactly when its expression succeeds, by
itself or through handlers, and at least two of the handlers that follow it are left unused. In
every other case it is accepted: it does its work, or it fails for another reason. -/
theorem execute_malformed_iff (config : Config) (context : Context) (statement : Statement)
    (line : Line) (htokens : statement.tokens = line.tokens)
    (hnumbers : NumbersRead line.tokens) :
    (∃ token cause, (statement.execute config context).2 = .error (.malformed token cause)) ↔
      (∃ outcome,
        (line.value.evaluate unhandled (statement.announce config context)).2 = .ok outcome) ∧
      2 ≤ (line.value.unused (statement.announce config context)).length := by
  rw [exists_malformed_iff, wellFormed_execute_iff config context htokens hnumbers]
  constructor
  · intro h
    obtain ⟨outcome, hrefused⟩ := Classical.not_forall.mp h
    obtain ⟨hok, hlength⟩ := Classical.not_imp.mp hrefused
    exact ⟨⟨outcome, hok⟩, Nat.not_lt.mp hlength⟩
  · rintro ⟨⟨outcome, hok⟩, hlength⟩ h
    exact Nat.not_lt.mpr hlength (h outcome hok)

/-- The tree of `(/ 8 divisor) -> (+ 2) -> !b`, a quotient with a handler that has a handler. -/
def quotient (divisor : Token.Of .number) : Line :=
  .bare (.call ⟨⟨.ofWord (utf8 "(") 1 1, by decide⟩, ⟨.ofWord (utf8 "/") 1 2, by decide⟩,
    .cons (.number ⟨.ofWord (utf8 "8") 1 4, by decide⟩) .none (.cons (.number divisor) .none .nil),
    ⟨.ofWord (utf8 ")") 1 7, by decide⟩,
    .call ⟨.ofWord (utf8 "->") 1 9, by decide⟩
      ⟨⟨.ofWord (utf8 "(") 1 12, by decide⟩, ⟨.ofWord (utf8 "+") 1 13, by decide⟩,
        .cons (.number ⟨.ofWord (utf8 "2") 1 15, by decide⟩) .none .nil,
        ⟨.ofWord (utf8 ")") 1 16, by decide⟩,
        .label ⟨.ofWord (utf8 "->") 1 18, by decide⟩ ⟨.ofWord (utf8 "!b") 1 21, by decide⟩⟩⟩)

theorem execute_quotient_zero_wellFormed :
    NumbersRead (quotient ⟨.ofWord (utf8 "0") 1 6, by decide⟩).tokens ∧
      ¬ ∃ token cause,
        (Statement.execute {} {}
          { tokens := (quotient ⟨.ofWord (utf8 "0") 1 6, by decide⟩).tokens }).2 =
          .error (.malformed token cause) := by
  have hnumbers := numbersRead_ofWord
    (show ∀ token ∈ (quotient ⟨.ofWord (utf8 "0") 1 6, by decide⟩).tokens,
      token = .ofWord token.lexeme token.line token.column by decide)
  refine ⟨hnumbers, ?_⟩
  rw [execute_malformed_iff {} {} _ _ rfl hnumbers]
  rintro ⟨-, hlength⟩
  exact absurd hlength (by decide)

/-- A division that succeeds leaves both handlers unused, and the second arrow is refused. -/
theorem execute_quotient_malformed :
    (Statement.execute {} {}
      { tokens := (quotient ⟨.ofWord (utf8 "4") 1 6, by decide⟩).tokens }).2 =
      .error (.malformed (some (.ofWord (utf8 "->") 1 18)) (.unexpectedToken (utf8 "->"))) := by
  have htokens :
      Statement.tokens { tokens := (quotient ⟨.ofWord (utf8 "4") 1 6, by decide⟩).tokens } =
        (quotient ⟨.ofWord (utf8 "4") 1 6, by decide⟩).tokens := rfl
  rw [execute_line {} {} htokens]
  rfl

end Grammar

end LineScript
