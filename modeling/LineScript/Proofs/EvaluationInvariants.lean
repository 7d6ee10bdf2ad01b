import LineScript.Execution

/-!
Invariants of evaluation. What is to hold of contexts, of values and of failures is stated once,
together with what the elementary steps owe to it: look-ups, literals, calls and the record of the
last failure. Evaluation and execution then keep it, however calls and handlers are nested.
-/

namespace LineScript

/-- What holds of every context, value and failure that an evaluation comes across, provided that
its tokens are as required. -/
structure EvalInvariant where
  context : Context → Prop
  value : Value → Prop
  failure : Failure → Prop
  token : Token → Prop
  known : ∀ {c name v}, context c → c.store.value? name = some v → value v
  number : ∀ n, value (.num n)
  text : ∀ {t}, token t → value (.txt t.text)
  label : ∀ {t}, token t → value (.lab t.text)
  call : ∀ {c name args}, context c → token name → (∀ arg ∈ args, value arg) →
    context (c.call name args).1 ∧
      (∀ outcome, (c.call name args).2 = .ok outcome → value outcome.value) ∧
      ∀ cause, (c.call name args).2 = .error cause → failure cause
  record : ∀ {c t cause}, context c → failure (.runtime t cause) →
    context (c.setLastError cause.message)
  undefined : ∀ {t}, token t → failure (.runtime t (.undefinedVariable t.text))
  malformed : ∀ t cause, failure (.malformed t cause)

theorem Expression.malformed_of_skipHandler {marker : Token} {tokens : List Token} {length : Nat}
    {failure : Failure} (h : skipHandler marker tokens = ⟨length, .error failure⟩) :
    ∃ token cause, failure = .malformed token cause := by
  unfold skipHandler at h
  repeat' split at h
  all_goals cases h
  all_goals exact ⟨_, _, rfl⟩

theorem Target.malformed_of_split {tokens : List Token} {failure : Failure}
    (h : split tokens = .error failure) : ∃ token cause, failure = .malformed token cause := by
  unfold split at h
  repeat' split at h
  all_goals cases h
  all_goals exact ⟨_, _, rfl⟩

theorem Target.exists_token_of_split {tokens : List Token} {target : Target} {start : Nat}
    (h : split tokens = .ok (some target, start)) :
    ∃ token ∈ tokens, target.name = token.text := by
  unfold split at h
  repeat' split at h
  all_goals cases h
  · exact ⟨_, List.mem_cons_self, rfl⟩
  · exact ⟨_, List.mem_cons_of_mem _ List.mem_cons_self, rfl⟩

theorem Statement.malformed_of_checkEnd {tokens : List Token} {failure : Failure}
    (h : checkEnd tokens = .error failure) : ∃ token cause, failure = .malformed token cause := by
  unfold checkEnd at h
  split at h
  · cases h
  · split at h
    · split at h
      · next hskip =>
          cases h
          exact Expression.malformed_of_skipHandler hskip
      · split at h <;> cases h
        exact ⟨_, _, rfl⟩
    · cases h
      exact ⟨_, _, rfl⟩

namespace EvalInvariant

variable (I : EvalInvariant)

/-- What an evaluation that keeps the invariant leaves behind. -/
structure Keeps (evaluated : Context × Span Outcome) : Prop where
  context : I.context evaluated.1
  value : ∀ outcome, evaluated.2.result = .ok outcome → I.value outcome.value
  failure : ∀ failure, evaluated.2.result = .error failure → I.failure failure

variable {I} {c : Context}

theorem Keeps.ok (hcontext : I.context c) {outcome : Outcome} (hvalue : I.value outcome.value)
    (length : Nat) : I.Keeps (c, ⟨length, .ok outcome⟩) := by
  refine ⟨hcontext, ?_, ?_⟩
  · rintro _ ⟨⟩
    exact hvalue
  · rintro _ ⟨⟩

theorem Keeps.error (hcontext : I.context c) {failure : Failure} (hfailure : I.failure failure)
    (length : Nat) : I.Keeps (c, ⟨length, .error failure⟩) := by
  refine ⟨hcontext, ?_, ?_⟩
  · rintro _ ⟨⟩
  · rintro _ ⟨⟩
    exact hfailure

theorem Keeps.after {evaluated : Context × Span Outcome} (h : I.Keeps evaluated) (count : Nat) :
    I.Keeps (evaluated.1, evaluated.2.after count) :=
  ⟨h.context, h.value, h.failure⟩

theorem forall_of_cons {P : Token → Prop} {token : Token} {rest : List Token}
    (h : ∀ other ∈ token :: rest, P other) (count : Nat) : ∀ other ∈ rest.drop count, P other :=
  fun other hmem => h other (List.mem_cons_of_mem _ (List.mem_of_mem_drop hmem))

-- The recursion is that of `evaluate`. The values of the operands are carried along for the call.
mutual

theorem evaluate {c : Context} (hcontext : I.context c) {tokens : List Token}
    (htokens : ∀ token ∈ tokens, I.token token) : I.Keeps (Expression.evaluate c tokens) := by
  match tokens with
  | [] =>
      rw [Expression.evaluate]
      exact .error hcontext (I.malformed _ _) 0
  | token :: rest =>
      have htoken := htokens token List.mem_cons_self
      rw [Expression.evaluate]
      split
      · exact (evaluateCall hcontext token (forall_of_cons htokens 0)).after 1
      · split
        · next hvalue => exact .ok hcontext (I.known hcontext hvalue) 1
        · exact .error hcontext (I.undefined htoken) 1
      · split
        · exact .ok hcontext (I.number _) 1
        · exact .error hcontext (I.malformed _ _) 1
      · exact .ok hcontext (I.text htoken) 1
      · exact .ok hcontext (I.label htoken) 1
      · exact .error hcontext (I.malformed _ _) 1
termination_by 2 * tokens.length

theorem evaluateCall {c : Context} (hcontext : I.context c) (opener : Token) {tokens : List Token}
    (htokens : ∀ token ∈ tokens, I.token token) :
    I.Keeps (Expression.evaluateCall c opener tokens) := by
  match tokens with
  | [] =>
      rw [Expression.evaluateCall]
      exact .error hcontext (I.malformed _ _) 0
  | name :: rest =>
      rw [Expression.evaluateCall]
      split
      · have hname := htokens name List.mem_cons_self
        exact (evaluateOperands hcontext opener hname (List.forall_mem_nil _) none
          (forall_of_cons htokens 0)).after 1
      · exact .error hcontext (I.malformed _ _) 1
      · exact .error hcontext (I.malformed _ _) 1
termination_by 2 * tokens.length

theorem evaluateOperands {c : Context} (hcontext : I.context c) (opener : Token) {name : Token}
    (hname : I.token name) {args : List Value} (hargs : ∀ arg ∈ args, I.value arg)
    (jump : Option Bytes) {tokens : List Token} (htokens : ∀ token ∈ tokens, I.token token) :
    I.Keeps (Expression.evaluateOperands c opener name args jump tokens) := by
  match tokens with
  | [] =>
      rw [Expression.evaluateOperands]
      exact .error hcontext (I.malformed _ _) 0
  | token :: rest =>
      rw [Expression.evaluateOperands]
      split
      · obtain ⟨hcalled, hvalue, hfailure⟩ := I.call hcontext hname hargs
        generalize c.call name args = called at hcalled hvalue hfailure
        obtain ⟨reached, failure | outcome⟩ := called
        · exact (recover hcalled (hfailure failure rfl) (forall_of_cons htokens 0)).after 1
        · have hgiven : I.value (outcome.orJump jump).value := hvalue outcome rfl
          exact .ok hcalled hgiven 1
      · split
        · next length _ =>
            exact (evaluateOperands hcontext opener hname hargs jump
              (forall_of_cons htokens (length - 1))).after length
        · next length failure hskip =>
            obtain ⟨_, _, rfl⟩ := Expression.malformed_of_skipHandler hskip
            exact .error hcontext (I.malformed _ _) length
      · have hoperand := evaluate hcontext htokens
        generalize Expression.evaluate c (token :: rest) = evaluated at hoperand
        obtain ⟨reached, length, failure | outcome⟩ := evaluated
        · have hfailure := hoperand.failure failure rfl
          dsimp only
          split
          · next last _ _ =>
              exact (recover hoperand.context hfailure (forall_of_cons htokens last)).after _
          · exact .error hoperand.context hfailure length
        · have hmore : ∀ arg ∈ args ++ [outcome.value], I.value arg :=
            List.forall_mem_append.mpr
              ⟨hargs, List.forall_mem_singleton.mpr (hoperand.value outcome rfl)⟩
          exact (evaluateOperands hoperand.context opener hname hmore _
            (forall_of_cons htokens (length - 1))).after length
termination_by 2 * tokens.length + 1

theorem recover {c : Context} (hcontext : I.context c) {failure : Failure} (hfailure : I.failure failure)
    {tokens : List Token} (htokens : ∀ token ∈ tokens, I.token token) :
    I.Keeps (Expression.recover c failure tokens) := by
  match tokens with
  | [] =>
      rw [Expression.recover]
      exact .error hcontext hfailure 0
  | marker :: rest =>
      unfold Expression.recover
      split
      · have hrecorded := I.record hcontext hfailure
        match rest with
        | [] => exact .error hrecorded (I.malformed _ _) 1
        | token :: rest =>
            dsimp only
            split
            · exact .ok hrecorded (I.number _) 2
            · exact (evaluate hrecorded (forall_of_cons htokens 0)).after 1
            · exact .error hrecorded (I.malformed _ _) 2
      · exact .error hcontext hfailure 0
termination_by 2 * tokens.length

end

/-- A statement keeps the invariant if announcing it and delivering its value do. -/
theorem execute {config : Config} {statement : Statement}
    (htokens : ∀ token ∈ statement.tokens, I.token token)
    (hmissing : I.failure statement.missingExpression)
    (hannounce : I.context (statement.announce config c))
    (hdeliver : ∀ {reached target start value},
      Target.split statement.tokens = .ok (target, start) → I.context reached → I.value value →
      I.context (Statement.deliver config reached statement target value).1 ∧
        ∀ failure, (Statement.deliver config reached statement target value).2 = .error failure →
          I.failure failure) :
    I.context (statement.execute config c).1 ∧
      ∀ failure, (statement.execute config c).2 = .error failure → I.failure failure := by
  have hfailed : ∀ {reached : Context} {failure : Failure}, I.context reached →
      I.failure failure → I.context reached ∧
        ∀ other, (.error failure : Except Failure (Option Bytes)) = .error other →
          I.failure other := by
    intro reached failure hreached hfailure
    refine ⟨hreached, ?_⟩
    rintro _ ⟨⟩
    exact hfailure
  rw [Statement.execute]
  split
  · next hsplit =>
      obtain ⟨_, _, rfl⟩ := Target.malformed_of_split hsplit
      exact hfailed hannounce (I.malformed _ _)
  · next target start hsplit =>
      split
      · exact hfailed hannounce hmissing
      · have hkeeps := evaluate hannounce
          (fun token hmem => htokens token (List.mem_of_mem_drop (i := start) hmem))
        generalize Expression.evaluate _ (statement.tokens.drop start) = evaluated at hkeeps
        obtain ⟨reached, length, failure | outcome⟩ := evaluated
        · exact hfailed hkeeps.context (hkeeps.failure failure rfl)
        · dsimp only
          split
          · next hend =>
              obtain ⟨_, _, rfl⟩ := Statement.malformed_of_checkEnd hend
              exact hfailed hkeeps.context (I.malformed _ _)
          · obtain ⟨hdelivered, hundelivered⟩ :=
              hdeliver hsplit hkeeps.context (hkeeps.value outcome rfl)
            generalize Statement.deliver config reached statement target outcome.value = delivered
              at hdelivered hundelivered
            obtain ⟨after, failure | done⟩ := delivered
            · exact hfailed hdelivered (hundelivered failure rfl)
            · refine ⟨hdelivered, ?_⟩
              rintro _ ⟨⟩

end EvalInvariant

end LineScript
