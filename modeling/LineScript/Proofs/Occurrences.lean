import LineScript.Proofs.Blame
import LineScript.Proofs.TreeEvaluation

/-!
What happens while a statement is executed, in order: functions are called, failures arise, and
failures come out of the operands of calls and out of the calls themselves. The tokens need not be
those of a tree of the grammar.

`Expression.Runs` and `Statement.Executes` say once what an evaluation and an execution can do.
Whatever is true of all of them is shown by induction on the one and by cases of the other.
-/

namespace LineScript

inductive Occurrence where
  | called (context : Context) (name : Token) (args : List Value)
  | failed (context : Context) (failure : Failure)
  /-- A failure comes out of an operand of a call or out of the call itself; `call` are the tokens
  from the opening bracket of the call on. -/
  | reached (call : List Token) (failure : Failure)

namespace Expression

open Grammar

def ownFailure {α : Type} (context : Context) : Except Failure α → List Occurrence
  | .error failure => [.failed context failure]
  | .ok _ => []

mutual

def occurrences (context : Context) (tokens : List Token) : List Occurrence :=
  match tokens with
  | opener :: name :: rest =>
      if opener.type = .functionStart ∧ name.type = .plain then
        operandOccurrences context (opener :: name :: rest) opener name [] rest
      else ownFailure context (evaluate context (opener :: name :: rest)).2.result
  | tokens => ownFailure context (evaluate context tokens).2.result
termination_by 2 * tokens.length

/-- What happens while what is left of the operands of a call and then the call itself are
evaluated; `call` are the tokens of the call from its opening bracket on. -/
def operandOccurrences (context : Context) (call : List Token) (opener name : Token)
    (args : List Value) : List Token → List Occurrence
  | [] => [.failed context (.malformed opener .abruptEnd)]
  | token :: rest =>
      match token.type with
      | .functionEnd =>
          .called context name args ::
            match context.call name args with
            | (_, .ok _) => []
            | (context, .error failure) =>
                .reached call failure :: handlerOccurrences context failure rest
      | .onFail =>
          match skipHandler token rest with
          | ⟨length, .ok ()⟩ =>
              operandOccurrences context call opener name args (rest.drop (length - 1))
          | ⟨_, .error failure⟩ => [.failed context failure]
      | _ =>
          occurrences context (token :: rest) ++
            match evaluate context (token :: rest) with
            | (context, ⟨length, .ok outcome⟩) =>
                operandOccurrences context call opener name (args ++ [outcome.value])
                  (rest.drop (length - 1))
            | (context, ⟨_, .error failure⟩) =>
                .reached call failure ::
                  match failure.isRecoverable, closingFrom 1 (token :: rest) with
                  | true, some last => handlerOccurrences context failure (rest.drop last)
                  | _, _ => []
termination_by tokens => 2 * tokens.length + 1

/-- What happens after a call has failed, in the handler at the start of the tokens if there is
one. -/
def handlerOccurrences (context : Context) (failure : Failure) : List Token → List Occurrence
  | [] => []
  | marker :: rest =>
      match marker.type, failure with
      | .onFail, .runtime _ cause =>
          match rest with
          | [] => [.failed (context.setLastError cause.message) (.malformed marker .missingHandler)]
          | token :: rest =>
              match token.type with
              | .label => []
              | .functionStart => occurrences (context.setLastError cause.message) (token :: rest)
              | _ =>
                  [.failed (context.setLastError cause.message) (.malformed token .badHandler)]
      | _, _ => []
termination_by tokens => 2 * tokens.length

end

inductive Task where
  | expression (tokens : List Token)
  | operands (call : List Token) (opener name : Token) (args : List Value) (jump : Option Bytes)
      (tokens : List Token)
  | recovery (failure : Failure) (tokens : List Token)

def Task.tokens : Task → List Token
  | expression tokens => tokens
  | operands _ opener name _ _ tokens => opener :: name :: tokens
  | recovery _ tokens => tokens

/-- Whether a part of an evaluation begins after a failure. -/
def Task.isRecovery : Task → Bool
  | recovery _ _ => true
  | _ => false

/-- A part of an evaluation, what happens in it, the context that it leaves and what it comes to. -/
inductive Runs : Context → Task → List Occurrence → Context → Span Outcome → Prop
  | atom {context : Context} {token : Token} {rest : List Token} {outcome : Outcome}
      (hstart : token.type ≠ .functionStart) (hend : token.type ≠ .functionEnd) :
      Runs context (.expression (token :: rest)) [] context ⟨1, .ok outcome⟩
  | fails {context : Context} {task : Task} {failure : Failure} {length : Nat}
      (htask : task.isRecovery = false)
      (hfailure : failure.Blames task.tokens) :
      Runs context task [.failed context failure] context ⟨length, .error failure⟩
  | call {context after : Context} {opener name : Token} {rest : List Token}
      {trace : List Occurrence} {span : Span Outcome}
      (hopener : opener.type = .functionStart) (hname : name.type = .plain)
      (hoperands : Runs context (.operands (opener :: name :: rest) opener name [] none rest) trace
        after span) :
      Runs context (.expression (opener :: name :: rest)) trace after (span.after 2)
  | called {context after : Context} {call rest : List Token} {opener name token : Token}
      {args : List Value} {jump : Option Bytes} {outcome : Outcome}
      (htoken : token.type = .functionEnd)
      (hcall : context.call name args = (after, .ok outcome)) :
      Runs context (.operands call opener name args jump (token :: rest))
        [.called context name args] after ⟨1, .ok (outcome.orJump jump)⟩
  | callFailed {context reached after : Context} {call rest : List Token}
      {opener name token : Token} {args : List Value} {jump : Option Bytes} {failure : Failure}
      {trace : List Occurrence} {span : Span Outcome} (htoken : token.type = .functionEnd)
      (hcall : context.call name args = (reached, .error failure))
      (hrecovery : Runs reached (.recovery failure rest) trace after span) :
      Runs context (.operands call opener name args jump (token :: rest))
        (.called context name args :: .reached call failure :: trace) after (span.after 1)
  | skipped {context after : Context} {call rest : List Token} {opener name token : Token}
      {args : List Value} {jump : Option Bytes} {length : Nat} {trace : List Occurrence}
      {span : Span Outcome} (htoken : token.type = .onFail)
      (hskip : skipHandler token rest = ⟨length, .ok ()⟩)
      (hoperands : Runs context
        (.operands call opener name args jump (rest.drop (length - 1))) trace after span) :
      Runs context (.operands call opener name args jump (token :: rest)) trace after
        (span.after length)
  | operand {context reached after : Context} {call rest : List Token}
      {opener name token : Token} {args : List Value} {jump : Option Bytes} {length : Nat}
      {outcome : Outcome} {trace more : List Occurrence} {span : Span Outcome}
      (hoperand : Runs context (.expression (token :: rest)) trace reached ⟨length, .ok outcome⟩)
      (hoperands : Runs reached (.operands call opener name (args ++ [outcome.value])
        (jump.or outcome.jump) (rest.drop (length - 1))) more after span) :
      Runs context (.operands call opener name args jump (token :: rest)) (trace ++ more) after
        (span.after length)
  | operandFailed {context reached after : Context} {call rest : List Token}
      {opener name token : Token} {args : List Value} {jump : Option Bytes} {length last : Nat}
      {failure : Failure} {trace more : List Occurrence} {span : Span Outcome}
      (hoperand : Runs context (.expression (token :: rest)) trace reached
        ⟨length, .error failure⟩)
      (hrecoverable : failure.isRecoverable)
      (hclosing : closingFrom 1 (token :: rest) = some last)
      (hrecovery : Runs reached (.recovery failure (rest.drop last)) more after span) :
      Runs context (.operands call opener name args jump (token :: rest))
        (trace ++ .reached call failure :: more) after (span.after (last + 1))
  | operandLost {context reached : Context} {call rest : List Token} {opener name token : Token}
      {args : List Value} {jump : Option Bytes} {length : Nat} {failure : Failure}
      {trace : List Occurrence}
      (hoperand : Runs context (.expression (token :: rest)) trace reached
        ⟨length, .error failure⟩)
      (hlost : failure.isRecoverable = false ∨ closingFrom 1 (token :: rest) = none) :
      Runs context (.operands call opener name args jump (token :: rest))
        (trace ++ [.reached call failure]) reached ⟨length, .error failure⟩
  | stays {context : Context} {failure : Failure} {tokens : List Token}
      (hstays : startsHandler tokens = false ∨ ∀ token cause, failure ≠ .runtime token cause) :
      Runs context (.recovery failure tokens) [] context ⟨0, .error failure⟩
  | badHandler {context : Context} {token : Option Token} {cause : RuntimeCause}
      {marker : Token} {rest : List Token} {failure : Failure} {length : Nat}
      (hmarker : marker.type = .onFail)
      (hfailure : failure.Blames (marker :: rest)) :
      Runs context (.recovery (.runtime token cause) (marker :: rest))
        [.failed (context.setLastError cause.message) failure]
        (context.setLastError cause.message) ⟨length, .error failure⟩
  | labelHandler {context : Context} {token : Option Token} {cause : RuntimeCause}
      {marker label : Token} {rest : List Token} {outcome : Outcome}
      (hmarker : marker.type = .onFail) (hlabel : label.type = .label) :
      Runs context (.recovery (.runtime token cause) (marker :: label :: rest)) []
        (context.setLastError cause.message) ⟨2, .ok outcome⟩
  | callHandler {context after : Context} {token : Option Token} {cause : RuntimeCause}
      {marker opener : Token} {rest : List Token} {trace : List Occurrence} {span : Span Outcome}
      (hmarker : marker.type = .onFail) (hopener : opener.type = .functionStart)
      (hcall : Runs (context.setLastError cause.message) (.expression (opener :: rest)) trace after
        span) :
      Runs context (.recovery (.runtime token cause) (marker :: opener :: rest)) trace after
        (span.after 1)

private theorem runs_single {context : Context} {token : Token} {rest : List Token}
    (hstart : token.type ≠ .functionStart) :
    Runs context (.expression (token :: rest))
      (ownFailure context (evaluate context (token :: rest)).2.result)
      (evaluate context (token :: rest)).1 (evaluate context (token :: rest)).2 := by
  have hmem : token ∈ (Task.expression (token :: rest)).tokens := List.mem_cons_self
  rw [evaluate]
  split
  · next h => exact absurd h hstart
  · next h =>
      split
      · exact .atom hstart (by simp [h])
      · exact .fails rfl (.runtime _ hmem)
  · next h =>
      split
      · exact .atom hstart (by simp [h])
      · exact .fails rfl (.malformed _ hmem)
  · next h => exact .atom hstart (by simp [h])
  · next h => exact .atom hstart (by simp [h])
  · exact .fails rfl (.malformed _ hmem)

private theorem runs_nameless {context : Context} {opener : Token} {rest : List Token}
    (hopener : opener.type = .functionStart)
    (hname : ∀ name tail, rest = name :: tail → name.type ≠ .plain) :
    Runs context (.expression (opener :: rest))
      (ownFailure context (evaluate context (opener :: rest)).2.result)
      (evaluate context (opener :: rest)).1 (evaluate context (opener :: rest)).2 := by
  rw [evaluate]
  simp only [hopener]
  cases rest with
  | nil =>
      rw [evaluateCall]
      exact .fails rfl (.malformed _ List.mem_cons_self)
  | cons name tail =>
      have hmem : name ∈ (Task.expression (opener :: name :: tail)).tokens :=
        List.mem_cons_of_mem _ List.mem_cons_self
      rw [evaluateCall]
      split
      · next h => exact absurd h (hname name tail rfl)
      · exact .fails rfl (.malformed _ hmem)
      · exact .fails rfl (.malformed _ hmem)

mutual

theorem runs_evaluate (context : Context) (tokens : List Token) :
    Runs context (.expression tokens) (occurrences context tokens) (evaluate context tokens).1
      (evaluate context tokens).2 := by
  match tokens with
  | [] =>
      rw [occurrences, evaluate]
      · exact .fails rfl (.of_token?_eq_none rfl rfl)
      · simp
  | [token] =>
      rw [occurrences]
      · by_cases hstart : token.type = .functionStart
        · exact runs_nameless hstart (by simp)
        · exact runs_single hstart
      · simp
  | opener :: name :: rest =>
      rw [occurrences]
      split
      · next h =>
          obtain ⟨hopener, hname⟩ := h
          have hoperands := runs_operands context (opener :: name :: rest) opener name [] none rest
          rw [evaluate]
          simp only [hopener]
          rw [evaluateCall]
          simp only [hname]
          have hcall := Runs.call hopener hname hoperands
          simpa [Span.after, ← Nat.add_assoc] using hcall
      · next h =>
          by_cases hopener : opener.type = .functionStart
          · refine runs_nameless hopener ?_
            rintro name tail hrest hname
            cases hrest
            exact h ⟨hopener, hname⟩
          · exact runs_single hopener
termination_by 2 * tokens.length

theorem runs_operands (context : Context) (call : List Token) (opener name : Token)
    (args : List Value) (jump : Option Bytes) (tokens : List Token) :
    Runs context (.operands call opener name args jump tokens)
      (operandOccurrences context call opener name args tokens)
      (evaluateOperands context opener name args jump tokens).1
      (evaluateOperands context opener name args jump tokens).2 := by
  match tokens with
  | [] =>
      rw [operandOccurrences, evaluateOperands]
      exact .fails rfl (.malformed _ List.mem_cons_self)
  | token :: rest =>
      rw [operandOccurrences]
      split
      · next hend =>
          rw [evaluateOperands]
          simp only [hend]
          cases hcall : context.call name args with
          | mk reached result =>
              cases result with
              | ok outcome => exact .called hend hcall
              | error failure =>
                  exact .callFailed hend hcall (runs_recovery reached failure rest)
      · next hmarker =>
          rw [evaluateOperands]
          simp only [hmarker]
          cases hskip : skipHandler token rest with
          | mk length result =>
              cases result with
              | ok done =>
                  exact .skipped hmarker hskip
                    (runs_operands context call opener name args jump (rest.drop (length - 1)))
              | error failure =>
                  refine .fails rfl ((blames_skipHandler hskip).subset ?_)
                  intro fault hmem
                  exact List.mem_cons_of_mem _ (List.mem_cons_of_mem _ hmem)
      · next hend hmarker =>
          have hoperand := runs_evaluate context (token :: rest)
          rw [evaluateOperands_operand hend hmarker]
          generalize evaluate context (token :: rest) = evaluated at hoperand
          obtain ⟨reached, length, result⟩ := evaluated
          cases result with
          | ok outcome =>
              exact .operand hoperand (runs_operands reached call opener name
                (args ++ [outcome.value]) (jump.or outcome.jump) (rest.drop (length - 1)))
          | error failure =>
              dsimp only
              cases hrecoverable : failure.isRecoverable with
              | false => exact .operandLost hoperand (.inl hrecoverable)
              | true =>
                  cases hclosing : closingFrom 1 (token :: rest) with
                  | none => exact .operandLost hoperand (.inr hclosing)
                  | some last =>
                      exact .operandFailed hoperand hrecoverable hclosing
                        (runs_recovery reached failure (rest.drop last))
termination_by 2 * tokens.length + 1

theorem runs_recovery (context : Context) (failure : Failure) (tokens : List Token) :
    Runs context (.recovery failure tokens) (handlerOccurrences context failure tokens)
      (recover context failure tokens).1 (recover context failure tokens).2 := by
  match tokens with
  | [] =>
      rw [handlerOccurrences, recover]
      exact .stays (.inl rfl)
  | marker :: rest =>
      by_cases htaken : marker.type = .onFail ∧ ∃ token cause, failure = .runtime token cause
      · obtain ⟨hmarker, token, cause, rfl⟩ := htaken
        match rest with
        | [] =>
            rw [handlerOccurrences, recover]
            · exact .badHandler hmarker (.malformed _ List.mem_cons_self)
            · exact hmarker
            · exact hmarker
        | token :: rest =>
            rw [handlerOccurrences]
            · split
              · next hlabel =>
                  rw [recover]
                  · simp only [hlabel]
                    exact .labelHandler hmarker hlabel
                  · exact hmarker
              · next hopener =>
                  rw [recover]
                  · simp only [hopener]
                    exact .callHandler hmarker hopener (runs_evaluate _ (token :: rest))
                  · exact hmarker
              · next hlabel hopener =>
                  rw [recover]
                  · split
                    · next h => exact absurd h hlabel
                    · next h => exact absurd h hopener
                    · exact .badHandler hmarker
                        (.malformed _ (List.mem_cons_of_mem _ List.mem_cons_self))
                  · exact hmarker
            · exact hmarker
      · have hstays : ∀ token cause, marker.type = .onFail → failure ≠ .runtime token cause := by
          rintro token cause hmarker rfl
          exact htaken ⟨hmarker, token, cause, rfl⟩
        rw [handlerOccurrences, recover]
        · refine .stays ?_
          by_cases hmarker : marker.type = .onFail
          · exact .inr fun token cause => hstays token cause hmarker
          · exact .inl (by simp [startsHandler, hmarker])
        · exact hstays
        · exact hstays
termination_by 2 * tokens.length

end

theorem runs_of_evaluate {context after : Context} {tokens : List Token} {span : Span Outcome}
    (h : evaluate context tokens = (after, span)) :
    Runs context (.expression tokens) (occurrences context tokens) after span := by
  have hruns := runs_evaluate context tokens
  rwa [h] at hruns

end Expression

namespace Statement

open Expression

def occurrences (config : Config) (context : Context) (statement : Statement) :
    List Occurrence :=
  let context := statement.announce config context
  match Target.split statement.tokens with
  | .error failure => [.failed context failure]
  | .ok (target, start) =>
      match statement.tokens.drop start with
      | [] => [.failed context statement.missingExpression]
      | tokens =>
          Expression.occurrences context tokens ++
            match evaluate context tokens with
            | (_, ⟨_, .error _⟩) => []
            | (context, ⟨length, .ok outcome⟩) =>
                match checkEnd (tokens.drop length) with
                | .error failure => [.failed context failure]
                | .ok () =>
                    let (context, result) :=
                      deliver config context statement target outcome.value
                    ownFailure context result

/-- An execution of a statement: what happens in it, the context that it leaves and what it comes
to. -/
inductive Executes (config : Config) (context : Context) (statement : Statement) :
    List Occurrence → Context → Except Failure (Option Bytes) → Prop
  | refused {failure : Failure}
      (hfailure : failure.Blames statement.tokens) :
      Executes config context statement [.failed (statement.announce config context) failure]
        (statement.announce config context) (.error failure)
  | failed {target : Option Target} {start length : Nat} {reached : Context} {failure : Failure}
      (hsplit : Target.split statement.tokens = .ok (target, start))
      (hevaluate : evaluate (statement.announce config context) (statement.tokens.drop start) =
        (reached, ⟨length, .error failure⟩)) :
      Executes config context statement
        (Expression.occurrences (statement.announce config context)
          (statement.tokens.drop start))
        reached (.error failure)
  | overlong {target : Option Target} {start length : Nat} {reached : Context}
      {outcome : Outcome} {failure : Failure}
      (hsplit : Target.split statement.tokens = .ok (target, start))
      (hevaluate : evaluate (statement.announce config context) (statement.tokens.drop start) =
        (reached, ⟨length, .ok outcome⟩))
      (hend : checkEnd ((statement.tokens.drop start).drop length) = .error failure) :
      Executes config context statement
        (Expression.occurrences (statement.announce config context)
          (statement.tokens.drop start) ++ [.failed reached failure])
        reached (.error failure)
  | undelivered {target : Option Target} {start length : Nat} {reached after : Context}
      {outcome : Outcome} {failure : Failure}
      (hsplit : Target.split statement.tokens = .ok (target, start))
      (hevaluate : evaluate (statement.announce config context) (statement.tokens.drop start) =
        (reached, ⟨length, .ok outcome⟩))
      (hdeliver : deliver config reached statement target outcome.value =
        (after, .error failure)) :
      Executes config context statement
        (Expression.occurrences (statement.announce config context)
          (statement.tokens.drop start) ++ [.failed after failure])
        after (.error failure)
  | delivered {target : Option Target} {start length : Nat} {reached after : Context}
      {outcome : Outcome}
      (hsplit : Target.split statement.tokens = .ok (target, start))
      (hevaluate : evaluate (statement.announce config context) (statement.tokens.drop start) =
        (reached, ⟨length, .ok outcome⟩))
      (hdeliver : deliver config reached statement target outcome.value = (after, .ok ())) :
      Executes config context statement
        (Expression.occurrences (statement.announce config context)
          (statement.tokens.drop start))
        after (.ok outcome.jump)

theorem executes (config : Config) (context : Context) (statement : Statement) :
    Executes config context statement (statement.occurrences config context)
      (statement.execute config context).1 (statement.execute config context).2 := by
  rw [occurrences, execute]
  cases hsplit : Target.split statement.tokens with
  | error failure => exact .refused (blames_split hsplit)
  | ok split =>
      obtain ⟨target, start⟩ := split
      dsimp only
      cases htokens : statement.tokens.drop start with
      | nil => exact .refused (blames_missingExpression statement)
      | cons token rest =>
          dsimp only
          rw [← htokens]
          cases hevaluate :
            evaluate (statement.announce config context) (statement.tokens.drop start) with
          | mk reached span =>
              obtain ⟨length, result⟩ := span
              cases result with
              | error failure =>
                  rw [List.append_nil]
                  exact .failed hsplit hevaluate
              | ok outcome =>
                  dsimp only
                  cases hend : checkEnd ((statement.tokens.drop start).drop length) with
                  | error failure => exact .overlong hsplit hevaluate hend
                  | ok done =>
                      dsimp only
                      cases hdeliver : deliver config reached statement target outcome.value with
                      | mk after result =>
                          cases result with
                          | error failure => exact .undelivered hsplit hevaluate hdeliver
                          | ok done =>
                              dsimp only [ownFailure]
                              rw [List.append_nil]
                              exact .delivered hsplit hevaluate hdeliver

end Statement

end LineScript
