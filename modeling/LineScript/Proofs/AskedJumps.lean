import LineScript.Proofs.NamedLabels

namespace LineScript

/-- The function is called with values that are no labels without names, and so are the variables by
then. -/
def Occurrence.Named : Occurrence → Prop
  | called context _ args => context.store.Named ∧ ∀ arg ∈ args, arg.Named
  | _ => True

namespace Expression

open Grammar

mutual

/-- The label that the expression at the start of the tokens asks to go on at, whether it has a name
or not. -/
def asked (context : Context) (tokens : List Token) : Option Bytes :=
  match tokens with
  | opener :: name :: rest =>
      if opener.type = .functionStart ∧ name.type = .plain then
        operandsAsked context name [] none rest
      else none
  | _ => none
termination_by 2 * tokens.length

/-- The label that what is left of a call asks for; `jump` is the one that the operands before have
asked for. -/
def operandsAsked (context : Context) (name : Token) (args : List Value) (jump : Option Bytes) :
    List Token → Option Bytes
  | [] => none
  | token :: rest =>
      match token.type with
      | .functionEnd =>
          match context.call name args with
          | (_, .ok _) => (Context.asks name args).or jump
          | (context, .error failure) => handlerAsked context failure rest
      | .onFail =>
          match skipHandler token rest with
          | ⟨length, .ok ()⟩ => operandsAsked context name args jump (rest.drop (length - 1))
          | ⟨_, .error _⟩ => none
      | _ =>
          match evaluate context (token :: rest) with
          | (reached, ⟨length, .ok outcome⟩) =>
              operandsAsked reached name (args ++ [outcome.value])
                (jump.or (asked context (token :: rest))) (rest.drop (length - 1))
          | (reached, ⟨_, .error failure⟩) =>
              match failure.isRecoverable, closingFrom 1 (token :: rest) with
              | true, some last => handlerAsked reached failure (rest.drop last)
              | _, _ => none
termination_by tokens => 2 * tokens.length + 1

def handlerAsked (context : Context) (failure : Failure) : List Token → Option Bytes
  | [] => none
  | marker :: rest =>
      match marker.type, failure with
      | .onFail, .runtime _ cause =>
          match rest with
          | [] => none
          | token :: rest =>
              match token.type with
              | .label => some token.text
              | .functionStart => asked (context.setLastError cause.message) (token :: rest)
              | _ => none
      | _, _ => none
termination_by tokens => 2 * tokens.length

end

/-- An evaluation in which every label has a name, and which comes to what it asks for. -/
structure Answers (trace : List Occurrence) (asked : Option Bytes) (after : Context)
    (span : Span Outcome) : Prop where
  store : after.store.Named
  trace : ∀ occurrence ∈ trace, occurrence.Named
  outcome : ∀ outcome, span.result = .ok outcome →
    outcome.Named ∧ outcome.jump = asked

namespace Answers

variable {trace more : List Occurrence} {asked : Option Bytes} {after : Context}
  {span : Span Outcome} {length : Nat} {failure : Failure}

theorem after_span (h : Answers trace asked after span) (count : Nat) :
    Answers trace asked after (span.after count) :=
  ⟨h.store, h.trace, h.outcome⟩

theorem append (h : Answers trace asked after span)
    (hmore : ∀ occurrence ∈ more, occurrence.Named) :
    Answers (more ++ trace) asked after span := by
  refine ⟨h.store, ?_, h.outcome⟩
  intro occurrence hmem
  rcases List.mem_append.mp hmem with hmem | hmem
  · exact hmore occurrence hmem
  · exact h.trace occurrence hmem

theorem error (hstore : after.store.Named) (htrace : ∀ occurrence ∈ trace, occurrence.Named) :
    Answers trace asked after ⟨length, .error failure⟩ := by
  refine ⟨hstore, htrace, ?_⟩
  rintro outcome ⟨⟩

theorem value {value : Value} (hstore : after.store.Named) (hvalue : value.Named) :
    Answers [] none after ⟨length, .ok { value }⟩ := by
  refine ⟨hstore, fun _ hmem => absurd hmem List.not_mem_nil, ?_⟩
  rintro outcome ⟨⟩
  exact ⟨⟨hvalue, by simp⟩, rfl⟩

end Answers

theorem named_ownFailure (context : Context) (result : Except Failure Outcome) :
    ∀ occurrence ∈ ownFailure context result, occurrence.Named := by
  rcases result with failure | outcome
  · exact List.forall_mem_singleton.mpr trivial
  · exact fun _ hmem => absurd hmem List.not_mem_nil

theorem answers_single {context : Context} {token : Token} {rest : List Token}
    (hstart : token.type ≠ .functionStart) (hstore : context.store.Named) (htoken : token.Named) :
    Answers (ownFailure context (evaluate context (token :: rest)).2.result) none
      (evaluate context (token :: rest)).1 (evaluate context (token :: rest)).2 := by
  rw [evaluate]
  split
  · next h => exact absurd h hstart
  · split
    · next value hvalue => exact .value hstore (hstore _ _ hvalue)
    · exact .error hstore (named_ownFailure _ _)
  · split
    · exact .value hstore (Value.named_num _)
    · exact .error hstore (named_ownFailure _ _)
  · exact .value hstore (Value.named_txt _)
  · next hlabel => exact .value hstore (Value.named_lab (htoken hlabel))
  · exact .error hstore (named_ownFailure _ _)

theorem answers_nameless {context : Context} {opener : Token} {rest : List Token}
    (hopener : opener.type = .functionStart)
    (hname : ∀ name tail, rest = name :: tail → name.type ≠ .plain)
    (hstore : context.store.Named) :
    Answers (ownFailure context (evaluate context (opener :: rest)).2.result) none
      (evaluate context (opener :: rest)).1 (evaluate context (opener :: rest)).2 := by
  rw [evaluate]
  simp only [hopener]
  rcases rest with _ | ⟨name, tail⟩
  · rw [evaluateCall]
    exact .error hstore (named_ownFailure _ _)
  · rw [evaluateCall]
    split
    · next h => exact absurd h (hname name tail rfl)
    · exact .error hstore (named_ownFailure _ _)
    · exact .error hstore (named_ownFailure _ _)

theorem forall_drop {P : Token → Prop} {token : Token} {rest : List Token}
    (h : ∀ other ∈ token :: rest, P other) (count : Nat) : ∀ other ∈ rest.drop count, P other :=
  fun other hmem => h other (List.mem_cons_of_mem _ (List.mem_of_mem_drop hmem))

theorem operandsAsked_operand {token : Token} (hend : token.type ≠ .functionEnd)
    (hmarker : token.type ≠ .onFail) (context : Context) (name : Token) (args : List Value)
    (jump : Option Bytes) (rest : List Token) :
    operandsAsked context name args jump (token :: rest) =
      match evaluate context (token :: rest) with
      | (reached, ⟨length, .ok outcome⟩) =>
          operandsAsked reached name (args ++ [outcome.value])
            (jump.or (asked context (token :: rest))) (rest.drop (length - 1))
      | (reached, ⟨_, .error failure⟩) =>
          match failure.isRecoverable, closingFrom 1 (token :: rest) with
          | true, some last => handlerAsked reached failure (rest.drop last)
          | _, _ => none := by
  rw [operandsAsked]
  split
  · next h => exact absurd h hend
  · next h => exact absurd h hmarker
  · rfl

-- The recursion is that of `evaluate`: a call is its operands, and an operand that fails hands over
-- to the handler of the call.
mutual

theorem answers_evaluate {context : Context} {tokens : List Token}
    (hstore : context.store.Named) (htokens : ∀ token ∈ tokens, token.Named) :
    Answers (occurrences context tokens) (asked context tokens) (evaluate context tokens).1
      (evaluate context tokens).2 := by
  match tokens with
  | [] =>
      rw [occurrences, evaluate]
      · exact .error hstore (named_ownFailure _ _)
      · simp
  | [token] =>
      rw [occurrences, asked]
      · by_cases hstart : token.type = .functionStart
        · exact answers_nameless hstart (by simp) hstore
        · exact answers_single hstart hstore (htokens _ List.mem_cons_self)
      · simp
      · simp
  | opener :: name :: rest =>
      rw [occurrences, asked]
      split
      · next h =>
          obtain ⟨hopener, hname⟩ := h
          have hnone : ∀ arg ∈ ([] : List Value), arg.Named := by simp
          have hfree : (none : Option Bytes) ≠ some [] := by simp
          have hoperands := answers_operands (opener :: name :: rest) opener name hstore hnone hfree
            (forall_drop htokens 1)
          rw [evaluate]
          simp only [hopener]
          rw [evaluateCall]
          simp only [hname]
          exact (hoperands.after_span 1).after_span 1
      · next h =>
          by_cases hopener : opener.type = .functionStart
          · refine answers_nameless hopener ?_ hstore
            rintro name tail hrest hname
            cases hrest
            exact h ⟨hopener, hname⟩
          · exact answers_single hopener hstore (htokens _ List.mem_cons_self)
termination_by 2 * tokens.length

theorem answers_operands {context : Context} (call : List Token) (opener name : Token)
    {args : List Value} {jump : Option Bytes} {tokens : List Token} (hstore : context.store.Named)
    (hargs : ∀ arg ∈ args, arg.Named) (hjump : jump ≠ some [])
    (htokens : ∀ token ∈ tokens, token.Named) :
    Answers (operandOccurrences context call opener name args tokens)
      (operandsAsked context name args jump tokens)
      (evaluateOperands context opener name args jump tokens).1
      (evaluateOperands context opener name args jump tokens).2 := by
  match tokens with
  | [] =>
      rw [operandOccurrences, evaluateOperands]
      exact .error hstore (List.forall_mem_singleton.mpr trivial)
  | token :: rest =>
      rw [operandOccurrences]
      split
      · next hend =>
          rw [operandsAsked, evaluateOperands]
          simp only [hend]
          have hcalled : (Occurrence.called context name args).Named := ⟨hstore, hargs⟩
          have hreached := store_call context name args
          have hnamed := @Context.named_call context name args
          cases hcall : context.call name args with
          | mk reached result =>
              rw [hcall] at hreached hnamed
              have hkept : reached.store.Named := by rwa [← hreached] at hstore
              rcases result with failure | outcome
              · have hfailed : (Occurrence.reached call failure).Named := trivial
                have htrace :=
                  List.forall_mem_cons.mpr ⟨hcalled, List.forall_mem_singleton.mpr hfailed⟩
                have hrecovery := answers_recovery failure hkept (forall_drop htokens 0)
                exact (hrecovery.append htrace).after_span 1
              · obtain ⟨hgiven, hasked⟩ := hnamed hargs rfl
                refine ⟨hkept, List.forall_mem_singleton.mpr hcalled, ?_⟩
                rintro _ ⟨⟩
                exact ⟨hgiven.orJump hjump, congrArg (Option.or · jump) hasked⟩
      · next hmarker =>
          rw [operandsAsked, evaluateOperands]
          simp only [hmarker]
          cases hskip : skipHandler token rest with
          | mk length result =>
              cases result with
              | ok done =>
                  exact (answers_operands call opener name hstore hargs hjump
                    (forall_drop htokens (length - 1))).after_span length
              | error failure => exact .error hstore (List.forall_mem_singleton.mpr trivial)
      · next hend hmarker =>
          have hoperand := answers_evaluate hstore htokens
          rw [operandsAsked_operand hend hmarker, evaluateOperands_operand hend hmarker]
          generalize evaluate context (token :: rest) = evaluated at hoperand
          obtain ⟨reached, length, result⟩ := evaluated
          rcases result with failure | outcome
          · dsimp only at hoperand ⊢
            have hreached : (Occurrence.reached call failure).Named := trivial
            have htrace := List.forall_mem_append.mpr
              ⟨hoperand.trace, List.forall_mem_singleton.mpr hreached⟩
            cases failure.isRecoverable with
            | false => exact .error hoperand.store htrace
            | true =>
                cases closingFrom 1 (token :: rest) with
                | none => exact .error hoperand.store htrace
                | some last =>
                    have hrecovery := answers_recovery failure hoperand.store
                      (forall_drop htokens last)
                    have hall := (hrecovery.append htrace).after_span (last + 1)
                    rwa [List.append_assoc] at hall
          · obtain ⟨houtcome, hasked⟩ := hoperand.outcome outcome rfl
            have hmore : ∀ arg ∈ args ++ [outcome.value], arg.Named :=
              List.forall_mem_append.mpr ⟨hargs, List.forall_mem_singleton.mpr houtcome.value⟩
            have hfirst : jump.or outcome.jump ≠ some [] := or_ne_some_nil hjump houtcome.jump
            have hrest := answers_operands call opener name hoperand.store hmore hfirst
              (forall_drop htokens (length - 1))
            dsimp only at hrest ⊢
            rw [← hasked]
            exact (hrest.append hoperand.trace).after_span length
termination_by 2 * tokens.length + 1

theorem answers_recovery {context : Context} (failure : Failure) {tokens : List Token}
    (hstore : context.store.Named) (htokens : ∀ token ∈ tokens, token.Named) :
    Answers (handlerOccurrences context failure tokens) (handlerAsked context failure tokens)
      (recover context failure tokens).1 (recover context failure tokens).2 := by
  match tokens with
  | [] =>
      rw [handlerOccurrences, recover]
      exact .error hstore (by simp)
  | marker :: rest =>
      by_cases htaken : marker.type = .onFail ∧ ∃ token cause, failure = .runtime token cause
      · obtain ⟨hmarker, token, cause, rfl⟩ := htaken
        have hrecorded : (context.setLastError cause.message).store.Named :=
          hstore.setLastError cause.message
        match rest with
        | [] =>
            rw [handlerOccurrences, recover]
            · exact .error hrecorded (List.forall_mem_singleton.mpr trivial)
            · exact hmarker
            · exact hmarker
        | token :: rest =>
            have htoken : token.Named :=
              htokens token (List.mem_cons_of_mem _ List.mem_cons_self)
            rw [handlerOccurrences]
            · split
              · next hlabel =>
                  rw [handlerAsked, recover]
                  · simp only [hlabel]
                    refine ⟨hrecorded, by simp, ?_⟩
                    rintro _ ⟨⟩
                    exact Builtin.named_jumpTo (Value.named_num _) (htoken hlabel)
                  · exact hmarker
                  · exact hmarker
              · next hopener =>
                  rw [handlerAsked, recover]
                  · simp only [hopener]
                    exact (answers_evaluate hrecorded (forall_drop htokens 0)).after_span 1
                  · exact hmarker
                  · exact hmarker
              · next hlabel hopener =>
                  rw [recover]
                  · split
                    · next h => exact absurd h hlabel
                    · next h => exact absurd h hopener
                    · exact .error hrecorded (List.forall_mem_singleton.mpr trivial)
                  · exact hmarker
            · exact hmarker
      · have hstays : ∀ token cause, marker.type = .onFail → failure ≠ .runtime token cause := by
          rintro token cause hmarker rfl
          exact htaken ⟨hmarker, token, cause, rfl⟩
        rw [handlerOccurrences, recover]
        · exact .error hstore (by simp)
        · exact hstays
        · exact hstays
termination_by 2 * tokens.length

end

theorem answers_of_evaluate {context after : Context} {tokens : List Token} {span : Span Outcome}
    (hstore : context.store.Named) (htokens : ∀ token ∈ tokens, token.Named)
    (h : evaluate context tokens = (after, span)) :
    Answers (occurrences context tokens) (asked context tokens) after span := by
  have hanswers := answers_evaluate hstore htokens
  rwa [h] at hanswers

end Expression

namespace Statement

open Expression

variable {config : Config} {context after : Context} {statement : Statement}

def asked (config : Config) (context : Context) (statement : Statement) : Option Bytes :=
  match Target.split statement.tokens with
  | .ok (_, start) =>
      Expression.asked (statement.announce config context) (statement.tokens.drop start)
  | .error _ => none

theorem named_deliver {target : Option Target} {value : Value} {result : Except Failure Unit}
    (h : context.store.Named) (hvalue : value.Named)
    (hdeliver : deliver config context statement target value = (after, result)) :
    after.store.Named := by
  rcases target with _ | place
  · rw [deliver] at hdeliver
    split at hdeliver <;> cases hdeliver <;> exact h
  · rw [deliver] at hdeliver
    split at hdeliver
    · next store hstored =>
        cases hdeliver
        split at hstored
        · exact h.declare hvalue hstored
        · exact h.assign hvalue hstored
    · cases hdeliver
      exact h

/-- Every label has a name while a statement is executed, and the statement goes on where it asks
to. -/
theorem answers_execute (config : Config) (hstore : context.store.Named)
    (htokens : ∀ token ∈ statement.tokens, token.Named) :
    (statement.execute config context).1.store.Named ∧
      (∀ occurrence ∈ statement.occurrences config context, occurrence.Named) ∧
      ∀ jump, (statement.execute config context).2 = .ok jump →
        jump = statement.asked config context ∧ jump ≠ some [] := by
  have hexecutes := statement.executes config context
  generalize statement.occurrences config context = trace at hexecutes
  generalize statement.execute config context = executed at hexecutes
  obtain ⟨after, result⟩ := executed
  dsimp only at hexecutes ⊢
  have hannounced : (statement.announce config context).store.Named := by
    rwa [store_announce]
  have hexpression : ∀ {start length : Nat} {reached : Context} {result : Except Failure Outcome},
      evaluate (statement.announce config context) (statement.tokens.drop start) =
        (reached, ⟨length, result⟩) → Answers _ _ reached ⟨length, result⟩ :=
    fun hevaluate => answers_of_evaluate hannounced
      (fun token hmem => htokens token (List.mem_of_mem_drop hmem)) hevaluate
  have hfailed : ∀ {trace : List Occurrence} (context : Context) (failure : Failure),
      (∀ occurrence ∈ trace, occurrence.Named) →
        ∀ occurrence ∈ trace ++ [.failed context failure], occurrence.Named :=
    fun _ _ htrace => List.forall_mem_append.mpr ⟨htrace, List.forall_mem_singleton.mpr trivial⟩
  cases hexecutes with
  | refused =>
      refine ⟨hannounced, List.forall_mem_singleton.mpr trivial, ?_⟩
      rintro jump ⟨⟩
  | failed _ hevaluate =>
      have hanswers := hexpression hevaluate
      refine ⟨hanswers.store, hanswers.trace, ?_⟩
      rintro jump ⟨⟩
  | overlong _ hevaluate =>
      have hanswers := hexpression hevaluate
      refine ⟨hanswers.store, hfailed _ _ hanswers.trace, ?_⟩
      rintro jump ⟨⟩
  | undelivered _ hevaluate hdeliver =>
      have hanswers := hexpression hevaluate
      obtain ⟨houtcome, -⟩ := hanswers.outcome _ rfl
      refine ⟨named_deliver hanswers.store houtcome.value hdeliver, hfailed _ _ hanswers.trace, ?_⟩
      rintro jump ⟨⟩
  | delivered hsplit hevaluate hdeliver =>
      have hanswers := hexpression hevaluate
      obtain ⟨houtcome, hasked⟩ := hanswers.outcome _ rfl
      refine ⟨named_deliver hanswers.store houtcome.value hdeliver, hanswers.trace, ?_⟩
      rintro jump ⟨⟩
      refine ⟨?_, houtcome.jump⟩
      rw [hasked, asked, hsplit]

end Statement

end LineScript
