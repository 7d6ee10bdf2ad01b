import LineScript.Proofs.Brackets
import LineScript.Proofs.Equality

/-!
What executing a statement changes in the store: its target, once it has succeeded, and the record of
the last failure handled. While an expression is evaluated nothing but that record moves. It moves
exactly when a failure of the execution comes out of an operand of a call, or out of the call
itself, and an arrow follows the closing bracket of that call.
-/

namespace LineScript

namespace Store

theorem value?_setValue (store : Store) (name other : Bytes) (value : Value) :
    (store.setValue name value).value? other =
      if other = name then some value else store.value? other :=
  Table.find?_insert store.values name other value

def record (store : Store) (messages : List Bytes) : Store :=
  messages.foldl setLastError store

theorem record_append (store : Store) (messages more : List Bytes) :
    store.record (messages ++ more) = (store.record messages).record more :=
  List.foldl_append

theorem labels_record (store : Store) (messages : List Bytes) :
    (store.record messages).labels = store.labels := by
  induction messages generalizing store with
  | nil => rfl
  | cons message messages ih => exact ih (store.setLastError message)

theorem value?_record_of_ne (store : Store) (messages : List Bytes) {name : Bytes}
    (hname : name ≠ errorName) : (store.record messages).value? name = store.value? name := by
  induction messages generalizing store with
  | nil => rfl
  | cons message messages ih =>
      refine (ih (store.setLastError message)).trans ?_
      rw [setLastError, value?_setValue, if_neg hname]

theorem value?_record (store : Store) (messages : List Bytes) :
    (store.record messages).value? errorName =
      (messages.getLast?.map Value.txt).or (store.value? errorName) := by
  rcases List.eq_nil_or_concat messages with rfl | ⟨earlier, last, rfl⟩
  · rfl
  · rw [List.concat_eq_append, record_append, List.getLast?_append]
    exact (value?_setValue _ _ _ _).trans (if_pos rfl)

end Store

/-- The message that a handler at the start of the tokens records of a failure. -/
def Failure.recorded? (failure : Failure) (tokens : List Token) : Option Bytes :=
  match failure with
  | .runtime _ cause => if Grammar.startsHandler tokens then some cause.message else none
  | _ => none

/-- The message of a failure of the execution that reaches a call whose closing bracket an arrow
follows. -/
def Occurrence.handled? : Occurrence → Option Bytes
  | .reached call failure => (Expression.afterClosing? call).bind failure.recorded?
  | _ => none

/-- The messages of the failures handled, in order. -/
def handledMessages (trace : List Occurrence) : List Bytes :=
  trace.filterMap Occurrence.handled?

theorem handledMessages_append (trace more : List Occurrence) :
    handledMessages (trace ++ more) = handledMessages trace ++ handledMessages more :=
  List.filterMap_append

theorem handledMessages_reached (call : List Token) (failure : Failure)
    (trace : List Occurrence) :
    handledMessages (.reached call failure :: trace) =
      ((Expression.afterClosing? call).bind failure.recorded?).toList ++ handledMessages trace := by
  rw [handledMessages, List.filterMap_cons, Occurrence.handled?]
  cases (Expression.afterClosing? call).bind failure.recorded? <;> rfl

theorem handledMessages_append_failed (trace : List Occurrence) (context : Context)
    (failure : Failure) :
    handledMessages (trace ++ [.failed context failure]) = handledMessages trace := by
  rw [handledMessages_append]
  exact List.append_nil _

namespace Expression

open Grammar

theorem store_call (context : Context) (token : Token) (args : List Value) :
    (context.call token args).1.store = context.store := by
  rw [Context.call]
  split
  · rfl
  · split
    · rfl
    · dsimp only
      split <;> rfl

def Task.recorded : Task → List Bytes
  | recovery failure tokens => (failure.recorded? tokens).toList
  | _ => []

def Task.Placed : Task → Prop
  | operands call _ _ _ _ tokens => Within call tokens
  | _ => True

private theorem recorded?_of_stays {failure : Failure} {tokens : List Token}
    (h : startsHandler tokens = false ∨ ∀ token cause, failure ≠ .runtime token cause) :
    failure.recorded? tokens = none := by
  unfold Failure.recorded?
  split
  · next token cause =>
      rcases h with hstays | hother
      · simp [hstays]
      · exact absurd rfl (hother token cause)
  · rfl

private theorem recorded?_of_marker {marker : Token} (hmarker : marker.type = .onFail)
    (token : Option Token) (cause : RuntimeCause) (rest : List Token) :
    (Failure.runtime token cause).recorded? (marker :: rest) = some cause.message := by
  simp [Failure.recorded?, startsHandler, hmarker]

private theorem recorded?_of_not_recoverable {failure : Failure}
    (h : failure.isRecoverable = false) (tokens : List Token) :
    failure.recorded? tokens = none := by
  refine recorded?_of_stays (.inr ?_)
  rintro token cause rfl
  cases h

/-- Evaluating an expression records the messages of the failures that reach an arrow, in order, and
changes nothing else in the store. -/
theorem Runs.store {context after : Context} {task : Task} {trace : List Occurrence}
    {span : Span Outcome} (h : Runs context task trace after span) (hplaced : task.Placed) :
    after.store = context.store.record (task.recorded ++ handledMessages trace) := by
  induction h with
  | atom => rfl
  | @fails _ task _ _ htask _ =>
      cases task with
      | expression | operands => rfl
      | recovery => cases htask
  | call hopener hname _ ih => exact ih (within_call hopener hname _)
  | @called context _ _ _ _ name _ args _ _ _ hcall =>
      have hstore := store_call context name args
      rw [hcall] at hstore
      exact hstore
  | @callFailed context _ _ call rest _ name _ args _ failure trace _ htoken hcall _ ih =>
      have hstore := store_call context name args
      have hclosing : afterClosing? call = some rest := by
        rw [Within.afterClosing? hplaced, closingFrom_end htoken, if_pos rfl]
        rfl
      have hmessages : handledMessages (.called context name args :: .reached call failure :: trace)
          = (failure.recorded? rest).toList ++ handledMessages trace := by
        refine (handledMessages_reached call failure trace).trans ?_
        rw [hclosing]
        rfl
      rw [hcall] at hstore
      rw [ih trivial, hstore, hmessages]
      rfl
  | skipped htoken hskip _ ih => exact ih (hplaced.skipped htoken hskip)
  | operand hoperand _ ihoperand ih =>
      rw [ih (hplaced.operand hoperand), ihoperand trivial, ← Store.record_append,
        handledMessages_append]
      rfl
  | @operandFailed _ _ _ call rest _ _ token _ _ _ last failure trace more _ _ _ hclosing _
      ihoperand ih =>
      have hafter : afterClosing? call = some (rest.drop last) := by
        rw [Within.afterClosing? hplaced, hclosing]
        rfl
      rw [ih trivial, ihoperand trivial, ← Store.record_append, handledMessages_append,
        handledMessages_reached, hafter]
      rfl
  | @operandLost _ _ call rest _ _ token _ _ _ failure trace _ hlost ihoperand =>
      have hnone : (afterClosing? call).bind failure.recorded? = none := by
        rcases hlost with hfatal | hopen
        · exact Option.bind_eq_none_iff.mpr fun tokens _ =>
            recorded?_of_not_recoverable hfatal tokens
        · rw [Within.afterClosing? hplaced, hopen]
          rfl
      rw [ihoperand trivial, handledMessages_append, handledMessages_reached, hnone]
      exact congrArg _ (List.append_nil _).symm
  | stays hstays =>
      rw [Task.recorded, recorded?_of_stays hstays]
      rfl
  | badHandler hmarker =>
      rw [Task.recorded, recorded?_of_marker hmarker]
      rfl
  | labelHandler hmarker =>
      rw [Task.recorded, recorded?_of_marker hmarker]
      rfl
  | callHandler hmarker _ _ ih =>
      rw [Task.recorded, recorded?_of_marker hmarker, ih trivial]
      rfl

end Expression

namespace Store

/-- A value is kept in a variable as one of the kind that the variable has, and of the kind that it
is declared with. Without a declaration the variable has to be there. -/
structure Keeps (store : Store) (target : Target) (value kept : Value) : Prop where
  coerced : value.coerce kept.kind = .ok kept
  declared : ∀ kind, target.kind = some kind → kept.kind = kind
  known : ∀ old, store.value? target.name = some old → kept.kind = old.kind
  assigned : target.kind = none → ∃ old, store.value? target.name = some old

variable {store stored : Store} {name : Bytes} {value : Value}

theorem keeps_of_declare {kind : Kind} (h : store.declare name kind value = .ok stored) :
    ∃ kept, stored = store.setValue name kept ∧ store.Keeps { name, kind } value kept := by
  have hknown : ∀ old, store.value? name = some old → old.kind = kind := by
    intro old hold
    rw [declare, hold] at h
    dsimp only at h
    split at h
    · next hkind => exact hkind
    · cases h
  have hcoerced : (value.coerce kind).map (store.setValue name) = .ok stored := by
    rw [declare] at h
    split at h
    · next old hold =>
        rw [if_pos (hknown old hold)] at h
        exact h
    · exact h
  cases hkept : value.coerce kind with
  | error cause =>
      rw [hkept] at hcoerced
      cases hcoerced
  | ok kept =>
      have hkind := Value.kind_coerce hkept
      rw [hkept] at hcoerced
      cases hcoerced
      refine ⟨kept, rfl, ?_, ?_, ?_, ?_⟩
      · rw [hkind]
        exact hkept
      · rintro declared hdeclared
        cases hdeclared
        exact hkind
      · intro old hold
        exact hkind.trans (hknown old hold).symm
      · intro hnone
        cases hnone

theorem keeps_of_assign (h : store.assign name value = .ok stored) :
    ∃ kept, stored = store.setValue name kept ∧ store.Keeps { name } value kept := by
  rw [assign] at h
  split at h
  · cases h
  · next old hold =>
      split at h
      · cases h
      · next kept hkept =>
          have hkind := Value.kind_coerce hkept
          cases h
          refine ⟨kept, rfl, ?_, ?_, ?_, ?_⟩
          · rw [hkind]
            exact hkept
          · intro kind hdeclared
            cases hdeclared
          · intro other hother
            rw [hold] at hother
            cases hother
            exact hkind
          · exact fun _ => ⟨old, hold⟩

end Store

namespace Statement

open Expression

theorem store_announce (config : Config) (context : Context) (statement : Statement) :
    (statement.announce config context).store = context.store := by
  rw [announce]
  split <;> rfl

theorem deliver_cases {config : Config} {context after : Context} {statement : Statement}
    {target : Option Target} {value : Value} {result : Except Failure Unit}
    (h : deliver config context statement target value = (after, result)) :
    (target = none ∧ after.store = context.store ∧
      (result = .ok () ∨ ∃ reason, result = .error (.stream reason))) ∨
    (∃ cause, after = context ∧ result = .error (.runtime statement.tokens.head? cause)) ∨
    (∃ place kept, target = some place ∧ context.store.Keeps place value kept ∧
      after.store = context.store.setValue place.name kept ∧ result = .ok ()) := by
  cases target with
  | none =>
      left
      rw [deliver] at h
      split at h
      · cases h
        exact ⟨rfl, rfl, .inl rfl⟩
      · cases h
        exact ⟨rfl, rfl, .inr ⟨_, rfl⟩⟩
  | some place =>
      right
      rw [deliver] at h
      split at h
      · next store hstored =>
          have hkept : ∃ kept, store = context.store.setValue place.name kept ∧
              context.store.Keeps place value kept := by
            obtain ⟨name, kind⟩ := place
            cases kind with
            | none => exact Store.keeps_of_assign hstored
            | some kind => exact Store.keeps_of_declare hstored
          obtain ⟨kept, rfl, hkeeps⟩ := hkept
          cases h
          exact .inr ⟨place, kept, rfl, hkeeps, rfl, rfl⟩
      · cases h
        exact .inl ⟨_, rfl, rfl⟩

private theorem store_expression {config : Config} {context reached : Context}
    {statement : Statement} {start : Nat} {span : Span Outcome}
    (hevaluate : evaluate (statement.announce config context) (statement.tokens.drop start) =
      (reached, span)) :
    reached.store = context.store.record (handledMessages
      (Expression.occurrences (statement.announce config context)
        (statement.tokens.drop start))) := by
  have hstore := (runs_of_evaluate hevaluate).store trivial
  rwa [store_announce] at hstore

/-- What executing a statement leaves of the store: the messages of the failures handled and, after
a success, the value of its target. -/
theorem Executes.store {config : Config} {context after : Context} {statement : Statement}
    {trace : List Occurrence} {result : Except Failure (Option Bytes)}
    (h : Executes config context statement trace after result) :
    after.store = context.store.record (handledMessages trace) ∨
      ∃ place start reached length outcome kept,
        Target.split statement.tokens = .ok (some place, start) ∧
        evaluate (statement.announce config context) (statement.tokens.drop start) =
          (reached, ⟨length, .ok outcome⟩) ∧
        result = .ok outcome.jump ∧
        (context.store.record (handledMessages trace)).Keeps place outcome.value kept ∧
        after.store = (context.store.record (handledMessages trace)).setValue place.name kept := by
  cases h with
  | refused => exact .inl (store_announce config context statement)
  | failed hsplit hevaluate => exact .inl (store_expression hevaluate)
  | overlong hsplit hevaluate hend =>
      rw [handledMessages_append_failed]
      exact .inl (store_expression hevaluate)
  | undelivered hsplit hevaluate hdeliver =>
      have hmessages := store_expression hevaluate
      rw [handledMessages_append_failed]
      rcases deliver_cases hdeliver with ⟨-, hstore, -⟩ | ⟨cause, rfl, -⟩ | ⟨_, _, -, -, -, hresult⟩
      · exact .inl (hstore.trans hmessages)
      · exact .inl hmessages
      · cases hresult
  | delivered hsplit hevaluate hdeliver =>
      have hmessages := store_expression hevaluate
      rcases deliver_cases hdeliver with ⟨-, hstore, -⟩ | ⟨cause, -, hresult⟩ |
        ⟨place, kept, rfl, hkeeps, hstore, -⟩
      · exact .inl (hstore.trans hmessages)
      · cases hresult
      · right
        rw [← hmessages]
        exact ⟨place, _, _, _, _, kept, hsplit, hevaluate, rfl, hkeeps, hstore⟩

/-- Executing a statement
* leaves the labels alone, and every variable but its target and `error`; there is no more to leave
  alone, since the functions are the same in every context,
* leaves its target alone as well when it fails, unless that is `error`,
* leaves in `error`, if it fails or has another target, the message of the last failure of the
  execution that came out of an operand of a call, or out of the call itself, where an arrow follows
  the closing bracket of that call; without such a failure `error` stays as it was,
* leaves the whole store alone if it fails without such a failure. -/
theorem execute_frame (config : Config) (context : Context) (statement : Statement) :
    (statement.execute config context).1.store.labels = context.store.labels ∧
    (∀ name, name ≠ Store.errorName →
      (∀ target start, Target.split statement.tokens = .ok (some target, start) →
        name ≠ target.name) →
      (statement.execute config context).1.store.value? name = context.store.value? name) ∧
    (∀ failure, (statement.execute config context).2 = .error failure →
      ∀ name, name ≠ Store.errorName →
        (statement.execute config context).1.store.value? name = context.store.value? name) ∧
    (((∃ failure, (statement.execute config context).2 = .error failure) ∨
        ∀ target start, Target.split statement.tokens = .ok (some target, start) →
          target.name ≠ Store.errorName) →
      (statement.execute config context).1.store.value? Store.errorName =
        ((handledMessages (statement.occurrences config context)).getLast?.map Value.txt).or
          (context.store.value? Store.errorName)) ∧
    (∀ failure, (statement.execute config context).2 = .error failure →
      handledMessages (statement.occurrences config context) = [] →
        (statement.execute config context).1.store = context.store) := by
  rcases (executes config context statement).store with hstore |
    ⟨place, start, _, _, _, kept, hsplit, -, hresult, -, hstore⟩
  · refine ⟨?_, ?_, ?_, ?_, ?_⟩
    · rw [hstore, Store.labels_record]
    · intro name hname _
      rw [hstore, Store.value?_record_of_ne _ _ hname]
    · intro failure _ name hname
      rw [hstore, Store.value?_record_of_ne _ _ hname]
    · intro _
      rw [hstore, Store.value?_record]
    · intro failure _ hnone
      rw [hstore, hnone]
      rfl
  · have hok : ∀ failure, (statement.execute config context).2 ≠ .error failure := by
      intro failure hfailed
      rw [hresult] at hfailed
      cases hfailed
    refine ⟨?_, ?_, ?_, ?_, ?_⟩
    · rw [hstore]
      exact Store.labels_record _ _
    · intro name hname htarget
      rw [hstore, Store.value?_setValue, if_neg (htarget place start hsplit),
        Store.value?_record_of_ne _ _ hname]
    · intro failure hfailed
      exact absurd hfailed (hok failure)
    · rintro (⟨failure, hfailed⟩ | htarget)
      · exact absurd hfailed (hok failure)
      · rw [hstore, Store.value?_setValue, if_neg (htarget place start hsplit).symm,
          Store.value?_record]
    · intro failure hfailed
      exact absurd hfailed (hok failure)

/-- The statement `y : (+ 1 (int "x") -> (+ 2))`. The text is no number, which is handled; then there
is no variable `y` to assign to. -/
def assignUndeclared : Statement where
  number := 1
  source := [utf8 "y : (+ 1 (int \"x\") -> (+ 2))"]
  tokens := [.ofWord (utf8 "y") 1 1, .ofWord (utf8 ":") 1 3, .ofWord (utf8 "(") 1 5,
    .ofWord (utf8 "+") 1 6, .ofWord (utf8 "1") 1 8, .ofWord (utf8 "(") 1 10,
    .ofWord (utf8 "int") 1 11, .ofWord (utf8 "\"x\"") 1 15, .ofWord (utf8 ")") 1 18,
    .ofWord (utf8 "->") 1 20, .ofWord (utf8 "(") 1 23, .ofWord (utf8 "+") 1 24,
    .ofWord (utf8 "2") 1 26, .ofWord (utf8 ")") 1 27, .ofWord (utf8 ")") 1 28]

theorem execute_frame_assignUndeclared :
    (∃ failure, (assignUndeclared.execute {} {}).2 = .error failure) ∧
      (assignUndeclared.execute {} {}).1.store.value? (utf8 "y") = none ∧
      (assignUndeclared.execute {} {}).1.store.value? Store.errorName =
        some (.txt (utf8 "\"x\" is not a number!")) := by
  obtain ⟨-, -, hatomic, herror, -⟩ := execute_frame {} {} assignUndeclared
  have hfails : (assignUndeclared.execute {} {}).2.isOk = false := by
    decide +kernel
  obtain ⟨failure, hfailed⟩ : ∃ failure, (assignUndeclared.execute {} {}).2 = .error failure := by
    cases hresult : (assignUndeclared.execute {} {}).2 with
    | ok jump =>
        rw [hresult] at hfails
        cases hfails
    | error failure => exact ⟨failure, rfl⟩
  have hmessages : handledMessages (assignUndeclared.occurrences {} {}) =
      [utf8 "\"x\" is not a number!"] := by
    decide +kernel
  refine ⟨⟨failure, hfailed⟩, hatomic failure hfailed (utf8 "y") (by decide), ?_⟩
  rw [herror (.inl ⟨failure, hfailed⟩), hmessages]
  rfl

end Statement

end LineScript
