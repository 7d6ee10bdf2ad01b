import LineScript.Proofs.LineBuffer
import LineScript.Proofs.LineFrame

namespace LineScript

namespace Store

/-- Every variable of a store is still there and has the kind that it had. -/
def Extends (before after : Store) : Prop :=
  ∀ name value, before.value? name = some value →
    ∃ kept, after.value? name = some kept ∧ kept.kind = value.kind

theorem Extends.refl (store : Store) : store.Extends store :=
  fun _ value h => ⟨value, h, rfl⟩

theorem Extends.trans {first second third : Store} (h : first.Extends second)
    (h' : second.Extends third) : first.Extends third := by
  intro name value hvalue
  obtain ⟨middle, hmiddle, hkind⟩ := h name value hvalue
  obtain ⟨kept, hkept, hkind'⟩ := h' name middle hmiddle
  exact ⟨kept, hkept, hkind'.trans hkind⟩

theorem extends_setValue {store : Store} {name : Bytes} {value : Value}
    (h : ∀ old, store.value? name = some old → value.kind = old.kind) :
    store.Extends (store.setValue name value) := by
  intro other old hold
  rw [value?_setValue]
  split
  · next heq =>
      subst heq
      exact ⟨value, rfl, h old hold⟩
  · exact ⟨old, hold, rfl⟩

def HasError (store : Store) : Prop :=
  ∃ value, store.value? errorName = some value ∧ value.kind = .txt

theorem HasError.of_extends {before after : Store} (h : before.HasError)
    (hextends : before.Extends after) : after.HasError := by
  obtain ⟨value, hvalue, hkind⟩ := h
  obtain ⟨kept, hkept, hsame⟩ := hextends errorName value hvalue
  exact ⟨kept, hkept, hsame.trans hkind⟩

theorem HasError.extends_setLastError {store : Store} (h : store.HasError) (message : Bytes) :
    store.Extends (store.setLastError message) := by
  obtain ⟨value, hvalue, hkind⟩ := h
  refine extends_setValue ?_
  intro old hold
  rw [hvalue] at hold
  cases hold
  exact hkind.symm

theorem HasError.extends_record {store : Store} (h : store.HasError) (messages : List Bytes) :
    store.Extends (store.record messages) := by
  induction messages generalizing store with
  | nil => exact .refl store
  | cons message messages ih =>
      have hfirst := h.extends_setLastError message
      exact hfirst.trans (ih (h.of_extends hfirst))

theorem hasError_fresh : fresh.HasError :=
  ⟨.txt [], (value?_setValue _ _ _ _).trans (if_pos rfl), rfl⟩

end Store

namespace Statement

open Expression

theorem extends_execute {context : Context} (h : context.store.HasError) (config : Config)
    (statement : Statement) :
    context.store.Extends (statement.execute config context).1.store := by
  have hrecord := h.extends_record (handledMessages (statement.occurrences config context))
  rcases (executes config context statement).store with hstore |
    ⟨place, _, _, _, _, kept, -, -, -, hkeeps, hstore⟩
  · rw [hstore]
    exact hrecord
  · rw [hstore]
    exact hrecord.trans (Store.extends_setValue hkeeps.known)

/-- After a success the target holds the value of the expression, as one of its kind. -/
theorem value?_target {config : Config} {context after : Context} {statement : Statement}
    (herror : context.store.HasError) {target : Target} {start : Nat}
    (hsplit : Target.split statement.tokens = .ok (some target, start)) {jump : Option Bytes}
    (hok : statement.execute config context = (after, .ok jump)) :
    ∃ outcome kept,
      (evaluate (statement.announce config context) (statement.tokens.drop start)).2.result =
        .ok outcome ∧
      after.store.value? target.name = some kept ∧ kept.equal outcome.value ∧
      (∀ kind, target.kind = some kind → kept.kind = kind) ∧
      (target.kind = none → ∃ old, context.store.value? target.name = some old) ∧
      ∀ old, context.store.value? target.name = some old → kept.kind = old.kind := by
  have hexecutes := executes config context statement
  rw [hok] at hexecutes
  generalize statement.occurrences config context = trace at hexecutes
  cases hexecutes with
  | @delivered _ _ length reached _ outcome hsplit' hevaluate hdeliver =>
      rw [hsplit] at hsplit'
      cases hsplit'
      have hreached := (runs_of_evaluate hevaluate).store trivial
      rw [store_announce] at hreached
      rcases deliver_cases hdeliver with ⟨hnone, -⟩ | ⟨cause, -, hresult⟩ |
        ⟨place, kept, hplace, hkeeps, hstore, -⟩
      · cases hnone
      · cases hresult
      · cases hplace
        have hextends : context.store.Extends reached.store := by
          rw [hreached]
          exact herror.extends_record _
        refine ⟨outcome, kept, by rw [hevaluate], ?_, Value.equal_coerce hkeeps.coerced,
          hkeeps.declared, ?_, ?_⟩
        · rw [hstore, Store.value?_setValue, if_pos rfl]
        · intro hassigned
          -- Evaluating the expression has added no variable.
          by_cases hname : target.name = Store.errorName
          · obtain ⟨value, hvalue, -⟩ := herror
            exact ⟨value, hname ▸ hvalue⟩
          · obtain ⟨old, hold⟩ := hkeeps.assigned hassigned
            rw [hreached, Store.value?_record_of_ne _ _ hname] at hold
            exact ⟨old, hold⟩
        · intro old hold
          obtain ⟨middle, hmiddle, hkind⟩ := hextends target.name old hold
          exact (hkeeps.known middle hmiddle).trans hkind

end Statement

namespace Machine

variable {config : Config} {machine : Machine} {statement : Statement}

theorem extends_declareLabel (config : Config) (machine : Machine) (statement : Statement)
    (name : Bytes) :
    machine.context.store.Extends
      (machine.declareLabel config statement name).machine.context.store := by
  rw [declareLabel]
  split
  · rw [fail_machine]
    exact .refl _
  · next store hdefined =>
      show machine.context.store.Extends store
      rw [defineLabel_eq hdefined]
      exact .refl machine.context.store

theorem context_jump (config : Config) (machine : Machine) (statement : Statement)
    (name : Bytes) : (machine.jump config statement name).machine.context = machine.context := by
  rw [jump]
  split
  · rfl
  · rw [fail_machine]
  · rfl

theorem context_perform (config : Config) (hlabel : statement.label? = none)
    (hseeking : machine.seeking = none) :
    (machine.perform config statement).machine.context =
      (statement.execute config machine.context).1 := by
  rw [perform_executed hlabel hseeking]
  generalize statement.execute config machine.context = executed
  obtain ⟨context, result⟩ := executed
  match result with
  | .error failure =>
      dsimp only
      rw [fail_machine]
  | .ok none => rfl
  | .ok (some name) => exact context_jump config { machine with context } statement name

theorem fail_ne_next (machine : Machine) (failed : Option Statement) (failure : Failure)
    (after : Machine) : machine.fail config failed failure ≠ .next after := by
  rw [fail]
  split <;> simp

/-- A program goes on after a statement only if executing it has succeeded. -/
theorem execute_of_perform (hlabel : statement.label? = none) (hseeking : machine.seeking = none)
    {after : Machine} (hnext : machine.perform config statement = .next after) :
    ∃ jump, statement.execute config machine.context = (after.context, .ok jump) := by
  have hcontext : after.context = (statement.execute config machine.context).1 := by
    have hperform := context_perform config hlabel hseeking
    rwa [hnext] at hperform
  rw [perform_executed hlabel hseeking] at hnext
  rw [hcontext]
  generalize statement.execute config machine.context = executed at hnext
  obtain ⟨context, result⟩ := executed
  cases result with
  | error failure => exact absurd hnext (fail_ne_next _ _ _ _)
  | ok jump => exact ⟨jump, rfl⟩

theorem extends_perform (machine : Machine) (h : machine.context.store.HasError)
    (config : Config) (statement : Statement) :
    machine.context.store.Extends
      (machine.perform config statement).machine.context.store := by
  cases hlabel : statement.label? with
  | some name =>
      rw [perform_label hlabel]
      exact extends_declareLabel config machine statement name
  | none =>
      cases hseeking : machine.seeking with
      | some name =>
          rw [perform_passed hlabel hseeking]
          exact .refl machine.context.store
      | none =>
          rw [context_perform config hlabel hseeking]
          exact statement.extends_execute h config

theorem Consistent.extends_store (hconsistent : machine.Consistent)
    (h : machine.context.store.HasError) (config : Config) :
    machine.context.store.Extends (machine.step config).machine.context.store := by
  rcases machine.step_cases config hconsistent.index_le with
    ⟨statement, -, -, hstep⟩ | ⟨-, ⟨-, -, hstep⟩ | ⟨part, failure, -, -, hstep⟩ |
      ⟨statement, -, -, hstep⟩⟩
  · rw [hstep]
    exact extends_perform machine h config statement
  · rw [hstep]
    exact .refl machine.context.store
  · rw [hstep, fail_machine]
    exact .refl machine.context.store
  · rw [hstep]
    exact extends_perform (machine.append statement) h config statement

end Machine

namespace Stage

theorem Move.extends_store {before after : Stage} {statement : Option Statement}
    (hmove : Move before statement after) (hconsistent : before.machine.Consistent)
    (herror : before.machine.context.store.HasError) :
    before.machine.context.store.Extends after.machine.context.store := by
  cases hmove with
  | start session => exact herror.extends_setLastError []
  | @next session machine hstep =>
      have hextends := hconsistent.extends_store herror session.config
      rwa [Stage.machine, Stage.session, hstep] at hextends
  | @halt session machine failure hstep =>
      have hextends := hconsistent.extends_store herror session.config
      obtain ⟨stderr, texts, reporter, hfinish⟩ := Session.finish_eq { session with machine } failure
      simp only [Stage.machine, Stage.session, hstep, hfinish] at hextends ⊢
      exact hextends

theorem Reaches.extends_store {first last : Stage} {scanned : List Statement}
    (hreaches : Reaches first scanned last) (hconsistent : first.machine.Consistent)
    (herror : first.machine.context.store.HasError) :
    first.machine.context.store.Extends last.machine.context.store := by
  induction hreaches with
  | refl => exact .refl _
  | tail hreaches hmove ih =>
      have hmiddle := (hreaches.preserves hconsistent).1
      exact ih.trans (hmove.extends_store hmiddle (herror.of_extends ih))

/-- However often a program is run, whatever it executes and whatever fails:
* the variable `error` is there and holds a text,
* a variable of the kind of natural numbers holds a natural number,
* a variable stays there and keeps its kind,
* when the program goes on after a statement with a target, the target holds a value that equals the
  value of the expression; it is of the kind that the target is declared with, and of the kind that
  the target had before. -/
theorem reaches_typed {config : Config} {streams : Streams} {color : Bool}
    {scanned : List Statement} {stage : Stage}
    (hreaches : Reaches (idle (Session.new config streams color)) scanned stage) :
    (∃ text, stage.machine.context.store.value? Store.errorName = some (.txt text)) ∧
    (∀ name value, stage.machine.context.store.value? name = some value → value.kind = .nat →
      ∃ n : Nat, value = .nat n) ∧
    (∀ more later, Reaches stage more later →
      ∀ name value, stage.machine.context.store.value? name = some value →
        ∃ kept, later.machine.context.store.value? name = some kept ∧ kept.kind = value.kind) ∧
    ∀ ready statement target start after, stage.machine.Obtains ready statement →
      statement.label? = none → ready.seeking = none →
      Target.split statement.tokens = .ok (some target, start) →
      stage.machine.step stage.session.config = .next after →
      ∃ outcome kept,
        (Expression.evaluate (statement.announce stage.session.config ready.context)
          (statement.tokens.drop start)).2.result = .ok outcome ∧
        after.context.store.value? target.name = some kept ∧ kept.equal outcome.value ∧
        (∀ kind, target.kind = some kind → kept.kind = kind) ∧
        (target.kind = none →
          ∃ old, stage.machine.context.store.value? target.name = some old) ∧
        ∀ old, stage.machine.context.store.value? target.name = some old →
          kept.kind = old.kind := by
  have hnew := consistent_new config streams color
  have hfresh : (idle (Session.new config streams color)).machine.context.store.HasError :=
    Store.hasError_fresh
  have hconsistent := (hreaches.preserves hnew).1
  have herror := hfresh.of_extends (hreaches.extends_store hnew hfresh)
  refine ⟨?_, ?_, ?_, ?_⟩
  · obtain ⟨value, hvalue, hkind⟩ := herror
    obtain ⟨text, rfl⟩ := Value.exists_txt hkind
    exact ⟨text, hvalue⟩
  · intro name value _ hkind
    exact Value.exists_nat hkind
  · intro more later hlater
    exact hlater.extends_store hconsistent herror
  · intro ready statement target start after hobtains hlabel hseeking hsplit hstep
    have hstore : ready.context.store = stage.machine.context.store := by
      cases hobtains <;> rfl
    rw [hobtains.step_eq] at hstep
    obtain ⟨jump, hok⟩ := Machine.execute_of_perform hlabel hseeking hstep
    rw [← hstore] at herror ⊢
    exact Statement.value?_target herror hsplit hok

def negativeAssignment : Streams where
  program := [.line (utf8 "Nat x : (+ 2 5)\n"), .line (utf8 "x : (- 2 5)\n")]

theorem reaches_typed_negativeAssignment :
    ∃ scanned session,
      Reaches (idle (Session.new {} negativeAssignment false)) scanned (idle session) ∧
      session.machine.context.store.value? (utf8 "x") = some (.nat 7) ∧
      (∃ text, session.machine.context.store.value? Store.errorName = some (.txt text)) ∧
      ∀ more later, Reaches (idle session) more later →
        ∃ kept, later.machine.context.store.value? (utf8 "x") = some kept ∧ kept.kind = .nat := by
  have hrun : ((Session.new {} negativeAssignment false).run 4).map (fun result =>
      result.1.machine.context.store.value? (utf8 "x")) = some (some (.nat 7)) := by
    decide +kernel
  obtain ⟨⟨session, failure⟩, hresult, hvalue⟩ := Option.map_eq_some_iff.mp hrun
  obtain ⟨scanned, hreaches⟩ := Reaches.refl.of_run hresult
  obtain ⟨herror, -, hkept, -⟩ := reaches_typed hreaches
  refine ⟨scanned, session, hreaches, hvalue, herror, ?_⟩
  intro more later hlater
  exact hkept more later hlater _ _ hvalue

end Stage

end LineScript
