import LineScript.Proofs.Extents
import LineScript.Proofs.LineFrame
import LineScript.Proofs.StrictEvaluation

namespace LineScript

namespace Expression

open Grammar

def skipHandlers : List Token → Span Unit
  | [] => ⟨0, .ok ()⟩
  | marker :: rest =>
      if marker.type = .onFail then
        match skipHandler marker rest with
        | ⟨length, .ok ()⟩ => (skipHandlers (rest.drop (length - 1))).after length
        | span => span
      else ⟨0, .ok ()⟩
termination_by tokens => tokens.length

/-- Where passing over the handlers from an index on comes to an end, and why it fails there. -/
def handlersFrom (tokens : List Token) (index : Nat) : Span Unit :=
  (skipHandlers (tokens.drop index)).after index

theorem handlersFrom_add (tokens : List Token) (m n : Nat) :
    handlersFrom tokens (m + n) = (handlersFrom (tokens.drop m) n).after m := by
  simp [handlersFrom, Span.after, Nat.add_assoc]

theorem handlersFrom_skipHandler {marker : Token} (hmarker : marker.type = .onFail)
    {rest : List Token} {length : Nat} (hskip : skipHandler marker rest = ⟨length, .ok ()⟩) :
    handlersFrom (marker :: rest) length = handlersFrom (marker :: rest) 0 := by
  have hlength : 1 ≤ length := (passes_skipHandler hmarker hskip (Int.le_refl 1)).1
  have hall : skipHandlers (marker :: rest) =
      (skipHandlers (rest.drop (length - 1))).after length := by
    rw [skipHandlers, if_pos hmarker, hskip]
  rw [handlersFrom, handlersFrom, List.drop_zero, hall, drop_pred marker rest hlength]
  simp [Span.after]

/-- A failure that reached a call was taken over by the handler of the call. -/
def Handled (call : List Token) (trace : List Occurrence) : Prop :=
  ∃ failure message, .reached call failure ∈ trace ∧
    (Occurrence.reached call failure).handled? = some message

def HandlerRan (context : Context) (tokens : List Token) : Prop :=
  Handled tokens (occurrences context tokens)

def Task.call? : Task → Option (List Token)
  | operands call _ _ _ _ _ => some call
  | _ => none

/-- Failures reach the call that is being evaluated and calls in what is left to be read. -/
theorem Runs.reached_call {context after : Context} {task : Task} {trace : List Occurrence}
    {span : Span Outcome} (h : Runs context task trace after span) {call : List Token}
    {failure : Failure} (hreached : .reached call failure ∈ trace) :
    task.call? = some call ∨ call.length ≤ task.input.length := by
  have hnone : none ≠ some call := (Option.some_ne_none call).symm
  induction h with
  | atom | stays | labelHandler => cases hreached
  | fails | badHandler | called => simp at hreached
  | call _ _ _ ih =>
      right
      rcases ih hreached with hcall | hlength
      · cases hcall
        exact Nat.le_refl _
      · exact Nat.le_add_right_of_le (Nat.le_add_right_of_le hlength)
  | callFailed _ _ _ ih =>
      simp only [List.mem_cons, reduceCtorEq, Occurrence.reached.injEq, false_or] at hreached
      rcases hreached with ⟨rfl, -⟩ | hreached
      · exact .inl rfl
      · exact .inr (Nat.le_add_right_of_le ((ih hreached).resolve_left hnone))
  | @skipped _ _ _ rest _ _ _ _ _ length _ _ _ _ _ ih =>
      rcases ih hreached with hcall | hlength
      · exact .inl hcall
      · refine .inr (Nat.le_trans hlength ?_)
        simp only [Task.input, List.length_drop, List.length_cons]
        omega
  | @operand _ _ _ _ rest _ _ _ _ _ length _ _ _ _ _ _ ihoperand ih =>
      rcases List.mem_append.mp hreached with hreached | hreached
      · exact .inr ((ihoperand hreached).resolve_left hnone)
      · rcases ih hreached with hcall | hlength
        · exact .inl hcall
        · refine .inr (Nat.le_trans hlength ?_)
          simp only [Task.input, List.length_drop, List.length_cons]
          omega
  | @operandFailed _ _ _ _ rest _ _ _ _ _ _ last _ _ _ _ _ _ _ _ ihoperand ih =>
      simp only [List.mem_append, List.mem_cons, Occurrence.reached.injEq] at hreached
      rcases hreached with hreached | ⟨rfl, -⟩ | hreached
      · exact .inr ((ihoperand hreached).resolve_left hnone)
      · exact .inl rfl
      · refine .inr (Nat.le_trans ((ih hreached).resolve_left hnone) ?_)
        simp only [Task.input, List.length_drop, List.length_cons]
        omega
  | operandLost _ _ ih =>
      simp only [List.mem_append, List.mem_singleton, Occurrence.reached.injEq] at hreached
      rcases hreached with hreached | ⟨rfl, -⟩
      · exact .inr ((ih hreached).resolve_left hnone)
      · exact .inl rfl
  | callHandler _ _ _ ih =>
      exact .inr (Nat.le_add_right_of_le ((ih hreached).resolve_left hnone))

theorem Runs.recorded_of_ok {context after : Context} {failure : Failure} {tokens : List Token}
    {trace : List Occurrence} {span : Span Outcome}
    (h : Runs context (.recovery failure tokens) trace after span) {outcome : Outcome}
    (hok : span.result = .ok outcome) : ∃ message, failure.recorded? tokens = some message := by
  cases h with
  | fails | stays | badHandler => cases hok
  | @labelHandler _ _ cause _ _ _ _ hmarker _ =>
      exact ⟨cause.message, by simp [Failure.recorded?, startsHandler, hmarker]⟩
  | @callHandler _ _ _ cause _ _ _ _ _ hmarker _ _ =>
      exact ⟨cause.message, by simp [Failure.recorded?, startsHandler, hmarker]⟩

/-- A success of so many tokens reaches the bracket at index `last`, which closes what is open, and
goes further only if a failure was handled. -/
structure Reaches (depth : Int) (tokens : List Token) (last length : Nat) (handled : Prop) :
    Prop where
  closing : closingFrom depth tokens = some last
  le : last + 1 ≤ length
  exact : length = last + 1 ↔ ¬ handled
  handlers : handlersFrom tokens length = handlersFrom tokens (last + 1)

theorem Reaches.after {inner depth : Int} {tokens : List Token} {before last length : Nat}
    {handled handled' : Prop} (h : Reaches inner (tokens.drop before) last length handled)
    (hpasses : Passes depth inner tokens before) (hhandled : handled' ↔ handled) :
    Reaches depth tokens (last + before) (before + length) handled' := by
  have hle := h.le
  have hexact := h.exact
  refine ⟨?_, ?_, ?_, ?_⟩
  · rw [hpasses, h.closing]
    rfl
  · omega
  · rw [hhandled, ← hexact]
    omega
  · rw [show last + before + 1 = before + (last + 1) by omega, handlersFrom_add, handlersFrom_add,
      h.handlers]

theorem Reaches.recovered {depth : Int} {tokens : List Token} {last length : Nat} {handled : Prop}
    (hclosing : closingFrom depth tokens = some last) (hpos : 0 < length) (hhandled : handled)
    (hhandlers : handlersFrom (tokens.drop (last + 1)) length =
      handlersFrom (tokens.drop (last + 1)) 0) :
    Reaches depth tokens last (last + 1 + length) handled := by
  refine ⟨hclosing, Nat.le_add_right _ _, ?_, ?_⟩
  · simp only [hhandled, not_true_eq_false, iff_false]
    omega
  · rw [handlersFrom_add, hhandlers, ← handlersFrom_add]

def Task.Reaches (trace : List Occurrence) (length : Nat) : Task → Prop
  | expression tokens =>
      (∃ opener rest, tokens = opener :: rest ∧ opener.type = .functionStart) →
      ∃ last, Expression.Reaches 0 tokens last length (Handled tokens trace)
  | operands call _ _ _ _ tokens =>
      ∃ last, Expression.Reaches 1 tokens last length (Handled call trace)
  | recovery _ tokens => 0 < length ∧ handlersFrom tokens length = handlersFrom tokens 0

/-- A part of an evaluation that lies within the call that it belongs to. -/
def Task.Inside : Task → Prop
  | operands call _ _ _ _ tokens => Within call tokens ∧ tokens.length < call.length
  | _ => True

theorem handled_of_recovery {context after : Context} {failure : Failure}
    {call tokens : List Token} {last : Nat} {trace more : List Occurrence} {span : Span Outcome}
    (hwithin : Within call tokens) (hclosing : closingFrom 1 tokens = some last)
    (hrecovery : Runs context (.recovery failure (tokens.drop (last + 1))) more after span)
    {outcome : Outcome} (hok : span.result = .ok outcome)
    (hmem : .reached call failure ∈ trace) : Handled call trace := by
  obtain ⟨message, hmessage⟩ := hrecovery.recorded_of_ok hok
  refine ⟨failure, message, hmem, ?_⟩
  rw [Occurrence.handled?, hwithin.afterClosing?, hclosing]
  exact hmessage

theorem Runs.reaches {context after : Context} {task : Task} {trace : List Occurrence}
    {span : Span Outcome} (h : Runs context task trace after span) {outcome : Outcome}
    (hok : span.result = .ok outcome) (hinside : task.Inside) : task.Reaches trace span.length := by
  induction h generalizing outcome with
  | fails | operandLost | stays | badHandler => cases hok
  | atom hstart =>
      rintro ⟨opener, rest, htokens, hopener⟩
      cases htokens
      exact absurd hopener hstart
  | @call _ _ opener name rest _ span hopener hname _ ih =>
      rintro -
      have hpasses := (passes_start hopener 0 (name :: rest)).trans
        (passes_of_type hname (by decide) (by decide) 1 rest)
      have hshorter : rest.length < (opener :: name :: rest).length := by
        simp only [List.length_cons]
        omega
      obtain ⟨last, hreaches⟩ := ih hok ⟨within_call hopener hname rest, hshorter⟩
      exact ⟨last + 2, hreaches.after hpasses .rfl⟩
  | @called _ _ call rest _ _ _ _ _ _ htoken _ =>
      refine ⟨0, ?_, Nat.le_refl 1, ?_, rfl⟩
      · rw [closingFrom_end htoken, if_pos rfl]
      · simp [Handled]
  | @callFailed _ _ _ call rest _ _ token _ _ _ _ span htoken _ hrecovery ih =>
      obtain ⟨hpos, hhandlers⟩ := ih hok trivial
      have hclosing : closingFrom 1 (token :: rest) = some 0 := by
        rw [closingFrom_end htoken, if_pos rfl]
      exact ⟨0, .recovered hclosing hpos
        (handled_of_recovery hinside.1 hclosing hrecovery hok (by simp)) hhandlers⟩
  | @skipped _ _ call rest _ _ token _ _ length _ span htoken hskip _ ih =>
      obtain ⟨hlength, hpasses⟩ := passes_skipHandler htoken hskip (Int.le_refl 1)
      obtain ⟨hwithin, hshorter⟩ := hinside
      have hshorter' : (rest.drop (length - 1)).length < call.length := by
        simp only [List.length_drop, List.length_cons] at hshorter ⊢
        omega
      obtain ⟨last, hreaches⟩ := ih hok ⟨hwithin.skipped htoken hskip, hshorter'⟩
      rw [drop_pred token rest hlength] at hreaches
      exact ⟨last + length, hreaches.after hpasses .rfl⟩
  | @operand _ _ _ call rest _ _ token _ _ length _ trace more span hoperand _ _ ih =>
      have hlength := hoperand.length_pos rfl
      have hpasses := hoperand.passes rfl (Int.le_refl 1)
      obtain ⟨hwithin, hshorter⟩ := hinside
      have hshorter' : (rest.drop (length - 1)).length < call.length := by
        simp only [List.length_drop, List.length_cons] at hshorter ⊢
        omega
      obtain ⟨last, hreaches⟩ := ih hok ⟨hwithin.operand hoperand, hshorter'⟩
      rw [drop_pred token rest hlength] at hreaches
      -- What reaches a call in the operand does not reach the call that the operand is in.
      have hhandled : Handled call (trace ++ more) ↔ Handled call more := by
        have hnot : ∀ failure, .reached call failure ∉ trace := by
          intro failure hmem
          have hle := (hoperand.reached_call hmem).resolve_left (Option.some_ne_none call).symm
          exact absurd hshorter (Nat.not_lt.mpr hle)
        simp [Handled, hnot]
      exact ⟨last + length, hreaches.after hpasses hhandled⟩
  | @operandFailed _ _ _ call rest _ _ token _ _ _ last _ _ _ span _ _ hclosing hrecovery _ ih =>
      obtain ⟨hpos, hhandlers⟩ := ih hok trivial
      exact ⟨last, .recovered hclosing hpos
        (handled_of_recovery hinside.1 hclosing hrecovery hok (by simp)) hhandlers⟩
  | @labelHandler _ _ _ marker label rest _ hmarker hlabel =>
      refine ⟨Nat.zero_lt_two, handlersFrom_skipHandler hmarker ?_⟩
      rw [skipHandler]
      simp only [hlabel]
  | @callHandler _ _ _ _ marker opener rest _ span hmarker hopener _ ih =>
      obtain ⟨last, hreaches⟩ := ih hok trivial ⟨opener, rest, rfl, hopener⟩
      have hclosing := hreaches.closing
      rw [closingFrom_start hopener, Option.map_eq_some_iff] at hclosing
      obtain ⟨inner, hinner, rfl⟩ := hclosing
      have hskip : skipHandler marker (opener :: rest) = ⟨inner + 3, .ok ()⟩ := by
        rw [skipHandler]
        simp only [hopener]
        rw [show (1 : Int) = 0 + 1 from rfl, hinner]
      refine ⟨Nat.lt_add_right _ Nat.zero_lt_one, ?_⟩
      rw [← handlersFrom_skipHandler hmarker hskip]
      show handlersFrom (marker :: opener :: rest) (1 + span.length) = _
      rw [handlersFrom_add, show inner + 3 = 1 + (inner + 1 + 1) by omega, handlersFrom_add]
      exact congrArg (Span.after 1) hreaches.handlers

theorem evaluate_take_append (context : Context) {tokens : List Token} {outcome : Outcome}
    (hok : (evaluate context tokens).2.result = .ok outcome) (more : List Token) :
    evaluate context (tokens.take (evaluate context tokens).2.length ++ more) =
      evaluate context tokens := by
  have hagree : AgreeUpTo (evaluate context tokens).2.length tokens
      (tokens.take (evaluate context tokens).2.length ++ more) := by
    rw [AgreeUpTo, List.take_append_of_le_length, List.take_take, Nat.min_self]
    rw [List.length_take]
    exact Nat.le_min.mpr ⟨Nat.le_refl _, length_evaluate_le context tokens⟩
  exact evaluate_congr hagree (Int.le_refl 1) context (.inl ⟨outcome, hok, Nat.le_refl _⟩)

/-- What an evaluation consumes: never more tokens than there are, at least one if there is one, and
for a success with a call exactly the tokens up to its closing bracket unless its handler ran. The
handlers left after it end where those after the closing bracket end, and what is not consumed does
not matter. -/
theorem evaluate_consumes (context : Context) (tokens : List Token) :
    (evaluate context tokens).2.length ≤ tokens.length ∧
    (tokens ≠ [] → 1 ≤ (evaluate context tokens).2.length) ∧
    Strict.evaluate (2 * tokens.length + 1) context tokens =
      some (Strict.Evaluation.at 0 (evaluate context tokens)) ∧
    ∀ outcome, (evaluate context tokens).2.result = .ok outcome →
      (∀ opener rest, tokens = opener :: rest → opener.type = .functionStart →
        ∃ last, closing? tokens = some last ∧
          last + 1 ≤ (evaluate context tokens).2.length ∧
          ((evaluate context tokens).2.length = last + 1 ↔ ¬ HandlerRan context tokens) ∧
          handlersFrom tokens (evaluate context tokens).2.length =
            handlersFrom tokens (last + 1)) ∧
      ∀ more, evaluate context (tokens.take (evaluate context tokens).2.length ++ more) =
        evaluate context tokens := by
  refine ⟨length_evaluate_le context tokens, ?_, ?_, ?_⟩
  · intro hne
    obtain ⟨token, rest, rfl⟩ := List.exists_cons_of_ne_nil hne
    exact length_evaluate_pos context token rest
  · exact Strict.evaluate_eq context (Nat.lt_succ_self _)
  · intro outcome hok
    refine ⟨?_, evaluate_take_append context hok⟩
    intro opener rest htokens hopener
    obtain ⟨last, hreaches⟩ :=
      (runs_evaluate context tokens).reaches hok trivial ⟨opener, rest, htokens, hopener⟩
    exact ⟨last, hreaches.closing, hreaches.le, hreaches.exact, hreaches.handlers⟩

/-- A sum that fails, its handler that fails, and the handler of that; one more is left unused. -/
def chainedHandlers : List Token :=
  [utf8 "(", utf8 "+", utf8 "1", utf8 "(", utf8 "/", utf8 "5", utf8 "0", utf8 ")", utf8 ")",
    utf8 "->", utf8 "(", utf8 "go", utf8 "7", utf8 ")", utf8 "->", utf8 "(", utf8 "*", utf8 "2",
    utf8 "3", utf8 ")", utf8 "->", utf8 "!never", utf8 "8"].map (.ofWord · 1 1)

theorem evaluate_consumes_chainedHandlers :
    (evaluate {} chainedHandlers).2.result = .ok { value := .nat 6 } ∧
    (evaluate {} chainedHandlers).2.length = 20 ∧ closing? chainedHandlers = some 8 ∧
    HandlerRan {} chainedHandlers ∧
    handlersFrom chainedHandlers 20 = handlersFrom chainedHandlers 9 ∧
    ∀ more, evaluate {} (chainedHandlers.take 20 ++ more) = evaluate {} chainedHandlers := by
  have hvalue : (evaluate {} chainedHandlers).2.result.toOption = some { value := .nat 6 } := by
    decide +kernel
  have hok : (evaluate {} chainedHandlers).2.result = .ok { value := .nat 6 } := by
    cases hresult : (evaluate {} chainedHandlers).2.result with
    | ok outcome =>
        rw [hresult] at hvalue
        exact congrArg Except.ok (Option.some.inj hvalue)
    | error failure =>
        rw [hresult] at hvalue
        cases hvalue
  have hlength : (evaluate {} chainedHandlers).2.length = 20 := by decide +kernel
  have hclosing : closing? chainedHandlers = some 8 := by decide
  obtain ⟨hcall, happend⟩ := (evaluate_consumes {} chainedHandlers).2.2.2 _ hok
  obtain ⟨last, hlast, -, hexact, hhandlers⟩ := hcall _ _ rfl (by decide)
  obtain rfl : last = 8 := Option.some.inj (hlast.symm.trans hclosing)
  rw [hlength] at hexact hhandlers happend
  have hran : HandlerRan {} chainedHandlers := Classical.not_not.mp (mt hexact.mpr (by decide))
  exact ⟨hok, hlength, hclosing, hran, hhandlers, happend⟩

end Expression

end LineScript
