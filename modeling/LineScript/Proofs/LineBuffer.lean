import LineScript.Proofs.LabelTable
import LineScript.Proofs.Simulation
import LineScript.Session

/-!
What a machine has scanned and which labels it knows. The life of a session is a chain of moves:
between two runs it is idle, and during a run it takes one step after another. On every such chain
the index stays within the statements scanned, the labels known are those of the statements scanned,
and nothing scanned or known is ever lost.
-/

namespace LineScript

def Step.machine : Step → Machine
  | .next machine => machine
  | .halt machine _ => machine

namespace Machine

variable {config : Config} {machine : Machine} {statement : Statement}

def scan (machine : Machine) : Scan :=
  machine.scanner.next machine.context.streams.program

def append (machine : Machine) (statement : Statement) : Machine :=
  { machine.afterScan machine.scan with statements := machine.statements.push statement }

def scanned? (machine : Machine) : Option Statement :=
  match machine.statements[machine.index]?, machine.scan.result with
  | none, .statement statement => some statement
  | _, _ => none

/-- The index stays within the statements scanned, and the labels known are those that these
statements declare, each at its first declaration. A label that is looked for is not among them. -/
structure Consistent (machine : Machine) : Prop where
  index_le : machine.index ≤ machine.statements.size
  label : ∀ name, machine.context.store.label? name =
    (declaration? machine.statements.toList name).map Int.ofNat
  sought : ∀ name, machine.seeking = some name → machine.context.store.label? name = none
  ascending : machine.context.store.labels.Ascending

/-- A machine about to perform a statement. Only the label of that statement may be missing, and
then the statement is the first to declare it. -/
structure Poised (machine : Machine) (statement : Statement) : Prop where
  current : machine.statements[machine.index]? = some statement
  label : ∀ name, machine.context.store.label? name =
      (declaration? machine.statements.toList name).map Int.ofNat ∨
    statement.label? = some name ∧ machine.context.store.label? name = none ∧
      declaration? machine.statements.toList name = some machine.index
  sought : ∀ name, machine.seeking = some name → machine.context.store.label? name = none
  ascending : machine.context.store.labels.Ascending

theorem Consistent.poised (h : machine.Consistent)
    (hcurrent : machine.statements[machine.index]? = some statement) :
    machine.Poised statement where
  current := hcurrent
  label name := .inl (h.label name)
  sought := h.sought
  ascending := h.ascending

theorem Consistent.poised_append (h : machine.Consistent)
    (hend : machine.index = machine.statements.size) :
    (machine.append statement).Poised statement where
  current := by
    show (machine.statements.push statement)[machine.index]? = some statement
    rw [hend]
    exact Array.getElem?_push_size
  label := by
    intro name
    show machine.context.store.label? name = _ ∨
      _ ∧ machine.context.store.label? name = none ∧ _ = some machine.index
    have hpush : (machine.append statement).statements.toList =
        machine.statements.toList ++ [statement] := Array.toList_push
    rw [hpush, declaration?_append_singleton, h.label]
    cases hknown : declaration? machine.statements.toList name with
    | some index => exact .inl rfl
    | none =>
        by_cases hlabel : statement.label? = some name
        · right
          simp [hlabel, hend]
        · left
          simp [hlabel]
  sought := h.sought
  ascending := h.ascending

theorem step_of_ended (hcurrent : machine.statements[machine.index]? = none)
    (hscan : machine.scan.result = .ended) (config : Config) :
    machine.step config = .halt (machine.afterScan machine.scan)
      ((machine.afterScan machine.scan).unfinished config) := by
  rw [scan] at hscan
  simp only [step, hcurrent, hscan, scan]

theorem step_of_failed (hcurrent : machine.statements[machine.index]? = none) {part : Statement}
    {failure : Failure} (hscan : machine.scan.result = .failed part failure) (config : Config) :
    machine.step config = (machine.afterScan machine.scan).fail config part failure := by
  rw [scan] at hscan
  simp only [step, hcurrent, hscan, scan]

/-- What a step can do: the statement at the index is there already, or the scanner yields it, or the
program ends, or the scan fails. -/
theorem step_cases (config : Config) (h : machine.index ≤ machine.statements.size) :
    (∃ statement, machine.statements[machine.index]? = some statement ∧ machine.scanned? = none ∧
      machine.step config = machine.perform config statement) ∨
    (machine.index = machine.statements.size ∧
      ((machine.scan.result = .ended ∧ machine.scanned? = none ∧
          machine.step config = .halt (machine.afterScan machine.scan)
            ((machine.afterScan machine.scan).unfinished config)) ∨
        (∃ part failure, machine.scan.result = .failed part failure ∧ machine.scanned? = none ∧
          machine.step config = (machine.afterScan machine.scan).fail config part failure) ∨
        ∃ statement, machine.scan.result = .statement statement ∧
          machine.scanned? = some statement ∧
          machine.step config = (machine.append statement).perform config statement)) := by
  cases hcurrent : machine.statements[machine.index]? with
  | some statement =>
      left
      refine ⟨statement, rfl, ?_, ?_⟩
      · rw [scanned?, hcurrent]
      · rw [step, hcurrent]
  | none =>
      have hend : machine.index = machine.statements.size :=
        Nat.le_antisymm h (Array.getElem?_eq_none_iff.mp hcurrent)
      refine .inr ⟨hend, ?_⟩
      cases hresult : machine.scan.result with
      | ended =>
          refine .inl ⟨rfl, ?_, step_of_ended hcurrent hresult config⟩
          rw [scanned?, hcurrent, hresult]
      | failed part failure =>
          refine .inr (.inl ⟨part, failure, rfl, ?_, step_of_failed hcurrent hresult config⟩)
          rw [scanned?, hcurrent, hresult]
      | statement statement =>
          refine .inr (.inr ⟨statement, rfl, ?_, ?_⟩)
          · rw [scanned?, hcurrent, hresult]
          · have hpushed :
                (machine.statements.push statement)[machine.index]? = some statement := by
              rw [hend]
              exact Array.getElem?_push_size
            have hkept : ∀ scan, (machine.afterScan scan).statements = machine.statements :=
              fun _ => rfl
            have hindex : ∀ scan, (machine.afterScan scan).index = machine.index := fun _ => rfl
            rw [scan] at hresult
            simp only [step, hcurrent, hresult, hkept, hindex, hpushed]
            rfl

/-- The statement that a machine performs in its next step, and the machine by then: the statement is
there already, or the scanner yields it. -/
inductive Obtains (machine : Machine) : Machine → Statement → Prop
  | known {statement : Statement}
      (hcurrent : machine.statements[machine.index]? = some statement) :
      Obtains machine machine statement
  | scanned {statement : Statement} (hend : machine.index = machine.statements.size)
      (hscan : machine.scan.result = .statement statement) :
      Obtains machine (machine.append statement) statement

theorem Obtains.step_eq {ready : Machine} (h : machine.Obtains ready statement)
    (config : Config) : machine.step config = ready.perform config statement := by
  cases h with
  | known hcurrent => rw [step, hcurrent]
  | scanned hend hscan =>
      have hnone : machine.statements[machine.index]? = none := by
        rw [hend]
        exact Array.getElem?_eq_none (Nat.le_refl _)
      rcases machine.step_cases config (Nat.le_of_eq hend) with
        ⟨_, hcurrent, -⟩ | ⟨-, ⟨hended, -⟩ | ⟨_, _, hfailed, -⟩ | ⟨other, hother, -, hstep⟩⟩
      · rw [hnone] at hcurrent
        cases hcurrent
      · rw [hscan] at hended
        cases hended
      · rw [hscan] at hfailed
        cases hfailed
      · rw [hscan] at hother
        cases hother
        exact hstep

theorem steps_add {middle : Machine} {count : Nat} (h : machine.steps config count = .next middle)
    (more : Nat) : machine.steps config (count + more) = middle.steps config more := by
  induction count generalizing machine with
  | zero =>
      cases h
      rw [Nat.zero_add]
  | succ count ih =>
      rw [Nat.succ_add, steps]
      rw [steps] at h
      cases hstep : machine.step config with
      | next reached =>
          rw [hstep] at h
          exact ih h
      | halt reached failure =>
          rw [hstep] at h
          cases h

@[simp]
theorem fail_machine (failed : Option Statement) (failure : Failure) :
    (machine.fail config failed failure).machine = machine := by
  rw [fail]
  split <;> rfl

/-- What performing a statement leaves alone. -/
structure Keeps (before after : Machine) : Prop where
  scanner : after.scanner = before.scanner
  statements : after.statements = before.statements
  program : before.context.streams.input.isSome → after.context.streams.input.isSome ∧
    after.context.streams.program = before.context.streams.program
  label : ∀ name index, before.context.store.label? name = some index →
    after.context.store.label? name = some index

theorem Keeps.refl (machine : Machine) : machine.Keeps machine :=
  ⟨rfl, rfl, fun h => ⟨h, rfl⟩, fun _ _ h => h⟩

theorem Keeps.trans {first second third : Machine} (h : first.Keeps second)
    (h' : second.Keeps third) : first.Keeps third where
  scanner := h'.scanner.trans h.scanner
  statements := h'.statements.trans h.statements
  program hinput :=
    ⟨(h'.program (h.program hinput).1).1,
      (h'.program (h.program hinput).1).2.trans (h.program hinput).2⟩
  label name index hknown := h'.label name index (h.label name index hknown)

theorem defineLabel_eq {store defined : Store} {name : Bytes} {index : Int}
    (h : store.defineLabel name index = .ok defined) :
    defined = { store with labels := store.labels.insert name index } := by
  rw [Store.defineLabel] at h
  split at h
  · exact (Except.ok.inj h).symm
  · split at h
    · exact (Except.ok.inj h).symm
    · cases h

theorem label?_defineLabel {store defined : Store} {name : Bytes} {index : Int}
    (h : store.defineLabel name index = .ok defined) (other : Bytes) :
    defined.label? other = if other = name then some index else store.label? other := by
  rw [defineLabel_eq h]
  exact Table.find?_insert store.labels name other index

theorem label?_of_defineLabel {store defined : Store} {name : Bytes} {index : Int}
    (h : store.defineLabel name index = .ok defined) :
    store.label? name = none ∨ store.label? name = some index := by
  rw [Store.defineLabel] at h
  split at h
  · next hnone => exact .inl hnone
  · next old hold =>
      split at h
      · next heq => exact .inr (heq ▸ hold)
      · cases h

theorem label?_of_defineLabel_error {store : Store} {name : Bytes} {index : Int}
    {cause : RuntimeCause} (h : store.defineLabel name index = .error cause) :
    ∃ old, store.label? name = some old ∧ old ≠ index := by
  rw [Store.defineLabel] at h
  split at h
  · cases h
  · next old hold =>
      split at h
      · cases h
      · next hne => exact ⟨old, hold, hne⟩

theorem labels_execute (context : Context) (config : Config) (statement : Statement) :
    (statement.execute config context).1.store.labels = context.store.labels :=
  (stable_labels context.store.labels).execute rfl config statement

theorem keeps_jump (config : Config) (machine : Machine) (statement : Statement) (name : Bytes) :
    machine.Keeps (machine.jump config statement name).machine := by
  rw [jump]
  split
  · exact ⟨rfl, rfl, fun h => ⟨h, rfl⟩, fun _ _ h => h⟩
  · rw [fail_machine]
    exact .refl machine
  · exact ⟨rfl, rfl, fun h => ⟨h, rfl⟩, fun _ _ h => h⟩

theorem keeps_declareLabel (config : Config) (machine : Machine) (statement : Statement)
    (name : Bytes) : machine.Keeps (machine.declareLabel config statement name).machine := by
  rw [declareLabel]
  split
  · rw [fail_machine]
    exact .refl machine
  · next store hdefined =>
      refine ⟨rfl, rfl, fun hinput => ⟨hinput, rfl⟩, ?_⟩
      intro other index hknown
      show store.label? other = some index
      rw [label?_defineLabel hdefined]
      split
      · next heq =>
          subst heq
          rcases label?_of_defineLabel hdefined with hnone | hsame
          · rw [hnone] at hknown
            cases hknown
          · rw [← hsame, hknown]
      · exact hknown

theorem perform_executed (hlabel : statement.label? = none) (hseeking : machine.seeking = none) :
    machine.perform config statement =
      match statement.execute config machine.context with
      | (context, .error failure) => { machine with context }.fail config statement failure
      | (context, .ok none) => .next { machine with context }.advance
      | (context, .ok (some name)) => { machine with context }.jump config statement name := by
  rw [perform, hlabel, hseeking]
  rfl

theorem perform_passed (hlabel : statement.label? = none) {name : Bytes}
    (hseeking : machine.seeking = some name) :
    machine.perform config statement = .next machine.advance := by
  rw [perform, hlabel, hseeking]
  rfl

theorem perform_label {name : Bytes} (hlabel : statement.label? = some name) :
    machine.perform config statement = machine.declareLabel config statement name := by
  rw [perform, hlabel]

theorem keeps_execute (config : Config) (machine : Machine) (statement : Statement) :
    machine.Keeps { machine with context := (statement.execute config machine.context).1 } where
  scanner := rfl
  statements := rfl
  program hinput := (stable_program _).execute ⟨hinput, rfl⟩ config statement
  label := by
    intro name index hknown
    rw [Store.label?] at hknown ⊢
    rw [labels_execute]
    exact hknown

theorem keeps_perform (config : Config) (machine : Machine) (statement : Statement) :
    machine.Keeps (machine.perform config statement).machine := by
  cases hlabel : statement.label? with
  | some name =>
      rw [perform_label hlabel]
      exact keeps_declareLabel config machine statement name
  | none =>
      cases hseeking : machine.seeking with
      | some name =>
          rw [perform_passed hlabel hseeking]
          exact ⟨rfl, rfl, fun h => ⟨h, rfl⟩, fun _ _ h => h⟩
      | none =>
          have hcontext := keeps_execute config machine statement
          rw [perform_executed hlabel hseeking]
          generalize statement.execute config machine.context = executed at hcontext
          obtain ⟨context, result⟩ := executed
          match result with
          | .error failure =>
              dsimp only
              rw [fail_machine]
              exact hcontext
          | .ok none => exact ⟨rfl, rfl, hcontext.program, hcontext.label⟩
          | .ok (some name) =>
              exact hcontext.trans (keeps_jump config { machine with context } statement name)

namespace Poised

variable (h : machine.Poised statement)
include h

theorem index_lt : machine.index < machine.statements.size :=
  (Array.getElem?_eq_some_iff.mp h.current).1

theorem index_le : machine.index ≤ machine.statements.size :=
  Nat.le_of_lt h.index_lt

theorem current_toList : machine.statements.toList[machine.index]? = some statement := by
  rw [Array.getElem?_toList]
  exact h.current

/-- A poised machine whose statement declares no label that is missing is consistent, wherever it
goes on. -/
theorem consistent_of_label
    (hlabel : ∀ name, statement.label? = some name → machine.context.store.label? name ≠ none)
    {index : Nat} (hindex : index ≤ machine.statements.size) :
    Consistent { machine with index } where
  index_le := hindex
  label := by
    intro name
    rcases h.label name with hknown | ⟨hdeclares, hmissing, -⟩
    · exact hknown
    · exact absurd hmissing (hlabel name hdeclares)
  sought := h.sought
  ascending := h.ascending

theorem consistent_of_unlabelled (hlabel : statement.label? = none) {index : Nat}
    (hindex : index ≤ machine.statements.size) : Consistent { machine with index } := by
  refine h.consistent_of_label ?_ hindex
  intro name hname
  rw [hlabel] at hname
  cases hname

theorem consistent_declareLabel (config : Config) {name : Bytes}
    (hlabel : statement.label? = some name) :
    (machine.declareLabel config statement name).machine.Consistent := by
  have hdeclared := declaration?_isSome h.current_toList hlabel
  rw [declareLabel]
  split
  · next cause herror =>
      obtain ⟨old, hold, -⟩ := label?_of_defineLabel_error herror
      rw [fail_machine]
      -- Another statement declares the label, and nothing has changed.
      refine h.consistent_of_label ?_ h.index_le
      rintro other hother
      obtain rfl : name = other := Option.some.inj (hlabel.symm.trans hother)
      rw [hold]
      exact Option.some_ne_none old
  · next store hdefined =>
      refine ⟨h.index_lt, ?_, ?_, ?_⟩
      · intro other
        show store.label? other = (declaration? machine.statements.toList other).map Int.ofNat
        rw [label?_defineLabel hdefined]
        rcases h.label other with hknown | ⟨hother, -, hfirst⟩
        · -- All labels are known: the one declared has the index that it had.
          split
          · next heq =>
              subst heq
              rw [← hknown]
              rcases label?_of_defineLabel hdefined with hnone | hsame
              · rw [hnone, eq_comm, Option.map_eq_none_iff] at hknown
                rw [hknown] at hdeclared
                cases hdeclared
              · exact hsame.symm
          · exact hknown
        · -- The statement has just been scanned and is the first to declare its label.
          obtain rfl : name = other := Option.some.inj (hlabel.symm.trans hother)
          rw [if_pos rfl, hfirst]
          rfl
      · intro other hseeking
        show store.label? other = none
        dsimp only at hseeking
        split at hseeking
        · cases hseeking
        · next hne =>
            have hother : other ≠ name := by
              rintro rfl
              exact hne hseeking
            rw [label?_defineLabel hdefined, if_neg hother]
            exact h.sought other hseeking
      · show store.labels.Ascending
        rw [defineLabel_eq hdefined]
        exact Table.ascending_insert h.ascending name _

theorem consistent_jump (config : Config) (hlabel : statement.label? = none) (name : Bytes) :
    (machine.jump config statement name).machine.Consistent := by
  have hlabels := (h.consistent_of_unlabelled hlabel h.index_le).label
  rw [jump]
  split
  · next index hknown =>
      refine h.consistent_of_unlabelled hlabel ?_
      rw [hlabels, Option.map_eq_some_iff] at hknown
      obtain ⟨declared, hdeclared, heq⟩ := hknown
      obtain rfl : declared = index := Int.ofNat.inj heq
      obtain ⟨⟨_, hstatement, -⟩, -⟩ := declaration?_eq_some_iff.mp hdeclared
      have hlt := (List.getElem?_eq_some_iff.mp hstatement).1
      exact Nat.le_of_lt hlt
  · rw [fail_machine]
    exact h.consistent_of_unlabelled hlabel h.index_le
  · next hnone =>
      refine ⟨h.index_lt, hlabels, ?_, h.ascending⟩
      rintro sought hsought
      obtain rfl : name = sought := Option.some.inj hsought
      exact hnone

theorem withContext {context : Context}
    (hlabels : context.store.labels = machine.context.store.labels) :
    Poised { machine with context } statement := by
  have hlabel : ∀ name, context.store.label? name = machine.context.store.label? name := by
    intro name
    rw [Store.label?, Store.label?, hlabels]
  refine ⟨h.current, ?_, ?_, ?_⟩
  · intro name
    dsimp only
    rw [hlabel]
    exact h.label name
  · intro name hseeking
    exact (hlabel name).trans (h.sought name hseeking)
  · show context.store.labels.Ascending
    rw [hlabels]
    exact h.ascending

theorem consistent_perform (config : Config) :
    (machine.perform config statement).machine.Consistent := by
  cases hlabel : statement.label? with
  | some name =>
      rw [perform_label hlabel]
      exact h.consistent_declareLabel config hlabel
  | none =>
      cases hseeking : machine.seeking with
      | some name =>
          rw [perform_passed hlabel hseeking]
          exact h.consistent_of_unlabelled hlabel h.index_lt
      | none =>
          have hlabels := labels_execute machine.context config statement
          rw [perform_executed hlabel hseeking]
          generalize statement.execute config machine.context = executed at hlabels
          obtain ⟨context, result⟩ := executed
          have hcontext := h.withContext hlabels
          match result with
          | .error failure =>
              dsimp only
              rw [fail_machine]
              exact hcontext.consistent_of_unlabelled hlabel h.index_le
          | .ok none => exact hcontext.consistent_of_unlabelled hlabel h.index_lt
          | .ok (some name) => exact hcontext.consistent_jump config hlabel name

end Poised

/-- What is scanned and known only grows, by the statement scanned if there is one. -/
structure Extends (before : Machine) (scanned : List Statement) (after : Machine) : Prop where
  statements : after.statements.toList = before.statements.toList ++ scanned
  label : ∀ name index, before.context.store.label? name = some index →
    after.context.store.label? name = some index

theorem Keeps.extends {before after : Machine} (h : before.Keeps after) :
    before.Extends [] after := by
  refine ⟨?_, h.label⟩
  rw [h.statements, List.append_nil]

theorem Extends.trans {first second third : Machine} {scanned more : List Statement}
    (h : first.Extends scanned second) (h' : second.Extends more third) :
    first.Extends (scanned ++ more) third := by
  refine ⟨?_, fun name index hknown => h'.label name index (h.label name index hknown)⟩
  rw [h'.statements, h.statements, List.append_assoc]

namespace Consistent

variable (h : machine.Consistent)
include h

theorem consistent_step (config : Config) : (machine.step config).machine.Consistent := by
  rcases machine.step_cases config h.index_le with
    ⟨statement, hcurrent, -, hstep⟩ | ⟨hend, ⟨-, -, hstep⟩ | ⟨part, failure, -, -, hstep⟩ |
      ⟨statement, -, -, hstep⟩⟩
  · rw [hstep]
    exact (h.poised hcurrent).consistent_perform config
  · rw [hstep]
    exact ⟨h.index_le, h.label, h.sought, h.ascending⟩
  · rw [hstep, fail_machine]
    exact ⟨h.index_le, h.label, h.sought, h.ascending⟩
  · rw [hstep]
    exact (h.poised_append hend).consistent_perform config

theorem extends_step (config : Config) :
    machine.Extends machine.scanned?.toList (machine.step config).machine := by
  rcases machine.step_cases config h.index_le with
    ⟨statement, -, hscanned, hstep⟩ | ⟨-, ⟨-, hscanned, hstep⟩ |
      ⟨part, failure, -, hscanned, hstep⟩ | ⟨statement, -, hscanned, hstep⟩⟩
  · rw [hstep, hscanned]
    exact (keeps_perform config machine statement).extends
  · rw [hstep, hscanned]
    exact ⟨(List.append_nil _).symm, fun _ _ hknown => hknown⟩
  · rw [hstep, hscanned, fail_machine]
    exact ⟨(List.append_nil _).symm, fun _ _ hknown => hknown⟩
  · rw [hstep, hscanned]
    have happended : machine.Extends [statement] (machine.append statement) :=
      ⟨Array.toList_push, fun _ _ hknown => hknown⟩
    exact happended.trans (keeps_perform config (machine.append statement) statement).extends

theorem index_eq_of_scanned (hscanned : machine.scanned? = some statement) :
    machine.index = machine.statements.size := by
  rw [scanned?] at hscanned
  split at hscanned
  · next hcurrent _ => exact Nat.le_antisymm h.index_le (Array.getElem?_eq_none_iff.mp hcurrent)
  · cases hscanned

theorem scanner_step_of_lt (config : Config) (hlt : machine.index < machine.statements.size) :
    machine.scanned? = none ∧ (machine.step config).machine.scanner = machine.scanner := by
  rcases machine.step_cases config h.index_le with ⟨statement, -, hscanned, hstep⟩ | ⟨hend, -⟩
  · refine ⟨hscanned, ?_⟩
    rw [hstep]
    exact (keeps_perform config machine statement).scanner
  · omega

theorem consistent_start : machine.start.Consistent :=
  ⟨Nat.zero_le _, h.label, h.sought, h.ascending⟩

end Consistent

end Machine

namespace Streams

def withErrors (streams : Streams) (stderr : Sink) (texts : List Bytes) : Streams :=
  { streams with stderr, log := texts.map Event.err ++ streams.log }

theorem withErrors_withErrors (streams : Streams) (stderr last : Sink) (texts more : List Bytes) :
    (streams.withErrors stderr texts).withErrors last more =
      streams.withErrors last (more ++ texts) := by
  simp [withErrors]

end Streams

namespace Session

theorem writeErr_eq (streams : Streams) (text : Bytes) :
    ∃ stderr texts, (streams.writeErr text).1 = streams.withErrors stderr texts := by
  rw [Streams.writeErr]
  split
  · exact ⟨_, [], rfl⟩
  · exact ⟨_, [text], rfl⟩

theorem writeErrs_eq (streams : Streams) (chunks : List Bytes) :
    ∃ stderr texts, (streams.writeErrs chunks).1 = streams.withErrors stderr texts := by
  induction chunks generalizing streams with
  | nil => exact ⟨_, [], rfl⟩
  | cons chunk rest ih =>
      obtain ⟨stderr, texts, hwritten⟩ := writeErr_eq streams chunk
      rw [Streams.writeErrs]
      split
      · next after hwrite =>
          rw [hwrite] at hwritten
          obtain rfl : after = streams.withErrors stderr texts := hwritten
          obtain ⟨last, more, hrest⟩ := ih (streams.withErrors stderr texts)
          exact ⟨last, more ++ texts, hrest.trans (streams.withErrors_withErrors ..)⟩
      · next after reason hwrite =>
          rw [hwrite] at hwritten
          exact ⟨stderr, texts, hwritten⟩

theorem print_eq (session : Session) (chunks : List Bytes) :
    ∃ stderr texts,
      session.print chunks = session.withStreams (session.streams.withErrors stderr texts) := by
  rw [print]
  generalize session.streams = streams
  induction chunks generalizing streams with
  | nil => exact ⟨_, [], rfl⟩
  | cons chunk rest ih =>
      obtain ⟨stderr, texts, hwritten⟩ := writeErr_eq streams chunk
      rw [List.foldl_cons, hwritten]
      obtain ⟨last, more, hrest⟩ := ih (streams.withErrors stderr texts)
      rw [Streams.withErrors_withErrors] at hrest
      exact ⟨last, more ++ texts, hrest⟩

theorem report_eq (session : Session) (failure : Option Failure) :
    ∃ stderr texts reporter, session.report failure =
      { session.withStreams (session.streams.withErrors stderr texts) with reporter } := by
  unfold report
  split
  · exact ⟨_, [], _, rfl⟩
  · next failure =>
      obtain ⟨stderr, texts, hprint⟩ := session.print_eq (session.reporter.lines failure)
      dsimp only
      split
      · exact ⟨_, [], _, rfl⟩
      · exact ⟨stderr, texts, _, by rw [hprint]⟩

theorem dump_eq (session : Session) :
    ∃ stderr texts,
      session.dump.1 = session.withStreams (session.streams.withErrors stderr texts) := by
  obtain ⟨stderr, texts, hwritten⟩ :=
    writeErrs_eq session.streams session.dumped.1
  refine ⟨stderr, texts, ?_⟩
  rw [← hwritten, dump]
  dsimp only
  split
  · next hwrites => rw [hwrites]
  · next hwrites => rw [hwrites]

/-- Ending a run writes to the standard error stream and reports, and does nothing else. -/
theorem finish_eq (session : Session) (failure : Option Failure) :
    ∃ stderr texts reporter, (session.finish failure).1 =
      { session.withStreams (session.streams.withErrors stderr texts) with reporter } := by
  obtain ⟨stderr, texts, reporter, hreport⟩ := session.report_eq failure
  rw [finish, hreport]
  dsimp only
  split
  · obtain ⟨after, more, hprint⟩ := print_eq
      { session.withStreams (session.streams.withErrors stderr texts) with reporter }
      [utf8 "DONE\n"]
    rw [hprint]
    obtain ⟨last, others, hdump⟩ := dump_eq (withStreams
      { session.withStreams (session.streams.withErrors stderr texts) with reporter }
      ((session.streams.withErrors stderr texts).withErrors after more))
    refine ⟨last, others ++ (more ++ texts), reporter, ?_⟩
    rw [← session.streams.withErrors_withErrors after,
      ← session.streams.withErrors_withErrors stderr]
    exact hdump
  · exact ⟨stderr, texts, reporter, rfl⟩

theorem finish_some (session : Session) (failure : Failure) :
    (session.finish (some failure)).2 = some failure := by
  rw [finish]
  dsimp only
  split <;> rfl

theorem steps_of_run {session after : Session} {limit : Nat} {failure : Option Failure}
    (h : session.run limit = some (after, failure)) :
    ∃ machine cause, session.machine.start.steps session.config limit = .halt machine cause ∧
      { session with machine }.finish cause = (after, failure) := by
  rw [run] at h
  split at h
  · cases h
  · next machine cause hsteps => exact ⟨machine, cause, hsteps, Option.some.inj h⟩

end Session

inductive Stage where
  | idle (session : Session)
  | running (session : Session)

namespace Stage

def session : Stage → Session
  | idle session => session
  | running session => session

def machine (stage : Stage) : Machine :=
  stage.session.machine

/-- One move of a session, with the statement that it takes from the scanner. -/
inductive Move : Stage → Option Statement → Stage → Prop
  | start (session : Session) :
      Move (idle session) none (running { session with machine := session.machine.start })
  | next {session : Session} {machine : Machine}
      (hstep : session.machine.step session.config = .next machine) :
      Move (running session) session.machine.scanned? (running { session with machine })
  | halt {session : Session} {machine : Machine} {failure : Option Failure}
      (hstep : session.machine.step session.config = .halt machine failure) :
      Move (running session) session.machine.scanned?
        (idle ({ session with machine }.finish failure).1)

/-- Any number of moves, with the statements that they take from the scanner. -/
inductive Reaches (first : Stage) : List Statement → Stage → Prop
  | refl : Reaches first [] first
  | tail {scanned : List Statement} {statement : Option Statement} {middle last : Stage}
      (hreaches : Reaches first scanned middle) (hmove : Move middle statement last) :
      Reaches first (scanned ++ statement.toList) last

theorem Move.preserves {before after : Stage} {statement : Option Statement}
    (hmove : Move before statement after) (h : before.machine.Consistent) :
    after.machine.Consistent ∧ before.machine.Extends statement.toList after.machine := by
  cases hmove with
  | start session =>
      exact ⟨h.consistent_start, (List.append_nil _).symm, fun _ _ hknown => hknown⟩
  | @next session machine hstep =>
      have hconsistent := h.consistent_step session.config
      have hextends := h.extends_step session.config
      simp only [Stage.machine, Stage.session, hstep] at hconsistent hextends ⊢
      exact ⟨hconsistent, hextends⟩
  | @halt session machine failure hstep =>
      have hconsistent := h.consistent_step session.config
      have hextends := h.extends_step session.config
      obtain ⟨stderr, texts, reporter, hfinish⟩ := Session.finish_eq { session with machine } failure
      simp only [Stage.machine, Stage.session, hstep, hfinish] at hconsistent hextends ⊢
      exact ⟨⟨hconsistent.index_le, hconsistent.label, hconsistent.sought, hconsistent.ascending⟩,
        hextends.statements, hextends.label⟩

theorem Reaches.preserves {first last : Stage} {scanned : List Statement}
    (hreaches : Reaches first scanned last) (h : first.machine.Consistent) :
    last.machine.Consistent ∧ first.machine.Extends scanned last.machine := by
  induction hreaches with
  | refl => exact ⟨h, (List.append_nil _).symm, fun _ _ hknown => hknown⟩
  | tail _ hmove ih =>
      obtain ⟨hmiddle, hextends⟩ := ih
      obtain ⟨hlast, hmore⟩ := hmove.preserves hmiddle
      exact ⟨hlast, hextends.trans hmore⟩

/-- A run that halts takes a last step, which it reaches like any other. -/
theorem Reaches.last_step {first : Stage} {scanned : List Statement} {session : Session}
    {limit : Nat} {halted : Machine} {failure : Option Failure}
    (hreaches : Reaches first scanned (running session))
    (hsteps : session.machine.steps session.config limit = .halt halted failure) :
    ∃ count machine scanned, session.machine.steps session.config count = .next machine ∧
      machine.step session.config = .halt halted failure ∧
      Reaches first scanned (running { session with machine }) := by
  induction limit generalizing scanned session with
  | zero => cases hsteps
  | succ limit ih =>
      rw [Machine.steps] at hsteps
      split at hsteps
      · next reached hstep =>
          obtain ⟨count, machine, scanned, hcount, hlast, hmachine⟩ :=
            ih (hreaches.tail (.next hstep)) hsteps
          refine ⟨count + 1, machine, scanned, ?_, hlast, hmachine⟩
          rw [Machine.steps, hstep]
          exact hcount
      · next hstep =>
          cases hsteps
          exact ⟨0, session.machine, scanned, rfl, hstep, hreaches⟩

theorem Reaches.of_run {first : Stage} {scanned : List Statement} {session after : Session}
    {limit : Nat} {failure : Option Failure} (hreaches : Reaches first scanned (idle session))
    (hrun : session.run limit = some (after, failure)) :
    ∃ scanned, Reaches first scanned (idle after) := by
  rw [Session.run] at hrun
  split at hrun
  · cases hrun
  · next machine failure hsteps =>
      obtain ⟨_, last, scanned, -, hstep, hlast⟩ :=
        (hreaches.tail (.start session)).last_step hsteps
      have hfinished := hlast.tail (.halt hstep)
      rw [Option.some.inj hrun] at hfinished
      exact ⟨_, hfinished⟩

theorem consistent_new (config : Config) (streams : Streams) (color : Bool) :
    (idle (Session.new config streams color)).machine.Consistent where
  index_le := Nat.le_refl 0
  label _ := rfl
  sought := by
    intro name hsought
    cases hsought
  ascending := .nil

/-- However often a program is run and whatever its lines, its input and its failures are:
* the index stays within the statements scanned, so that one scan makes up for what is missing,
* a label is known by the first statement scanned that declares it,
* every label that a statement scanned declares is known, and none of them declares a label that is
  looked for,
* the statements scanned are all that the scanner has ever yielded, each of them once and in order;
  they and the labels known stay as they are, and the scanner rests while there is a statement at
  the index. -/
theorem reaches_buffer {config : Config} {streams : Streams} {color : Bool}
    {scanned : List Statement} {stage : Stage}
    (hreaches : Reaches (idle (Session.new config streams color)) scanned stage) :
    (stage.machine.index ≤ stage.machine.statements.size ∧
      ∀ statement, stage.machine.scanned? = some statement →
        (stage.machine.statements.push statement)[stage.machine.index]? = some statement) ∧
    (∀ name index, stage.machine.context.store.label? name = some index →
      ∃ first : Nat, index = first ∧ first < stage.machine.statements.size ∧
        (∃ statement, stage.machine.statements[first]? = some statement ∧
          statement.label? = some name) ∧
        ∀ earlier < first, ∀ statement, stage.machine.statements[earlier]? = some statement →
          statement.label? ≠ some name) ∧
    ((∀ statement ∈ stage.machine.statements.toList, ∀ name, statement.label? = some name →
        (stage.machine.context.store.label? name).isSome) ∧
      ∀ name, stage.machine.seeking = some name →
        ∀ statement ∈ stage.machine.statements.toList, statement.label? ≠ some name) ∧
    stage.machine.statements.toList = scanned ∧
    (stage.machine.index < stage.machine.statements.size → stage.machine.scanned? = none ∧
      (stage.machine.step stage.session.config).machine.scanner = stage.machine.scanner) ∧
    ∀ more later, Reaches stage more later →
      later.machine.statements.toList = stage.machine.statements.toList ++ more ∧
        ∀ name index, stage.machine.context.store.label? name = some index →
          later.machine.context.store.label? name = some index := by
  obtain ⟨hconsistent, hextends⟩ := hreaches.preserves (consistent_new config streams color)
  refine ⟨⟨hconsistent.index_le, ?_⟩, ?_, ⟨?_, ?_⟩, hextends.statements, ?_, ?_⟩
  · intro statement hscanned
    have hend := hconsistent.index_eq_of_scanned hscanned
    rw [hend]
    exact Array.getElem?_push_size
  · intro name index hknown
    rw [hconsistent.label, Option.map_eq_some_iff] at hknown
    obtain ⟨first, hfirst, rfl⟩ := hknown
    obtain ⟨⟨statement, hstatement, hlabel⟩, hearlier⟩ := declaration?_eq_some_iff.mp hfirst
    simp only [Array.getElem?_toList] at hstatement hearlier
    exact ⟨first, rfl, (Array.getElem?_eq_some_iff.mp hstatement).1,
      ⟨statement, hstatement, hlabel⟩, hearlier⟩
  · intro statement hmem name hlabel
    obtain ⟨index, hindex⟩ := List.mem_iff_getElem?.mp hmem
    rw [hconsistent.label, Option.isSome_map]
    exact declaration?_isSome hindex hlabel
  · intro name hsought
    have hunknown := hconsistent.sought name hsought
    rw [hconsistent.label, Option.map_eq_none_iff] at hunknown
    exact declaration?_eq_none_iff.mp hunknown
  · intro hlt
    exact hconsistent.scanner_step_of_lt stage.session.config hlt
  · intro more later hlater
    have hmore := (hlater.preserves hconsistent).2
    exact ⟨hmore.statements, hmore.label⟩

def passingOver : Streams where
  program := [.line (utf8 "(go !b)\n"), .line (utf8 "!a\n"), .line (utf8 "!b\n")]

theorem reaches_buffer_passingOver :
    ∃ scanned session, Reaches (idle (Session.new {} passingOver false)) scanned (idle session) ∧
      scanned.length = 3 ∧ session.machine.context.store.label? (utf8 "a") = some 1 ∧
      session.machine.statements.toList = scanned := by
  have hrun : ((Session.new {} passingOver false).run 4).map (fun result =>
      (result.1.machine.statements.size, result.1.machine.context.store.label? (utf8 "a"))) =
        some (3, some 1) := by
    decide +kernel
  obtain ⟨⟨session, failure⟩, hresult, hknown⟩ := Option.map_eq_some_iff.mp hrun
  obtain ⟨hsize, hlabel⟩ := Prod.mk.inj hknown
  obtain ⟨scanned, hreaches⟩ := Reaches.refl.of_run hresult
  have hscanned := (reaches_buffer hreaches).2.2.2.1
  refine ⟨scanned, session, hreaches, ?_, hlabel, hscanned⟩
  rw [← hscanned]
  exact hsize

end Stage

end LineScript
