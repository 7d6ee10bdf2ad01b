import LineScript.Proofs.LineBuffer
import LineScript.Proofs.Tables
import LineScript.Proofs.WellFormedTexts

namespace LineScript

open Yaml (Node)

namespace Store

inductive Change where
  | declare (name : Bytes) (kind : Kind) (value : Value)
  | assign (name : Bytes) (value : Value)
  | defineLabel (name : Bytes) (index : Int)
  | setLastError (message : Bytes)
  | reset

def change (store : Store) : Change → Except RuntimeCause Store
  | .declare name kind value => store.declare name kind value
  | .assign name value => store.assign name value
  | .defineLabel name index => store.defineLabel name index
  | .setLastError message => .ok (store.setLastError message)
  | .reset => .ok store.reset

/-- The store after a change that leaves it as it was if it is refused. -/
def attempt (store : Store) (change : Change) : Store :=
  match store.change change with
  | .ok changed => changed
  | .error _ => store

def after (changes : List Change) : Store :=
  changes.foldl attempt fresh

/-- A change that is not refused sets one variable or binds one label. -/
theorem change_cases {store changed : Store} {change : Change}
    (h : store.change change = .ok changed) :
    (∃ name value, changed = store.setValue name value) ∨
      ∃ name index, changed = { store with labels := store.labels.insert name index } := by
  cases change with
  | declare name kind value =>
      obtain ⟨kept, rfl⟩ := declare_eq_setValue h
      exact .inl ⟨name, kept, rfl⟩
  | assign name value =>
      obtain ⟨kept, rfl⟩ := assign_eq_setValue h
      exact .inl ⟨name, kept, rfl⟩
  | defineLabel name index => exact .inr ⟨name, index, Machine.defineLabel_eq h⟩
  | setLastError message => exact .inl ⟨errorName, .txt message, (Except.ok.inj h).symm⟩
  | reset => exact .inl ⟨errorName, .txt [], (Except.ok.inj h).symm⟩

structure Ordered (store : Store) : Prop where
  values : store.values.Ascending
  labels : store.labels.Ascending

theorem ordered_fresh : fresh.Ordered := by
  have hnil : ∀ {α : Type}, Table.Ascending ([] : Table α) := .nil
  exact ⟨Table.ascending_insert hnil errorName (.txt []), hnil⟩

theorem Ordered.attempt {store : Store} (h : store.Ordered) (change : Change) :
    (store.attempt change).Ordered := by
  rw [Store.attempt]
  split
  · next changed hchange =>
      rcases change_cases hchange with ⟨name, value, rfl⟩ | ⟨name, index, rfl⟩
      · exact ⟨Table.ascending_insert h.values name value, h.labels⟩
      · exact ⟨h.values, Table.ascending_insert h.labels name index⟩
  · exact h

theorem ordered_after (changes : List Change) : (after changes).Ordered := by
  -- The changes may begin with any store whose names ascend.
  have hrun : ∀ store : Store, store.Ordered → (changes.foldl Store.attempt store).Ordered := by
    induction changes with
    | nil => exact fun _ h => h
    | cons change changes ih => exact fun store h => ih _ (h.attempt change)
  exact hrun fresh ordered_fresh

end Store

theorem Builtin.ofName?_eq_some_iff {name : Bytes} {function : Builtin} :
    ofName? name = some function ↔ function.name = name := by
  constructor
  · intro h
    rw [ofName?] at h
    simpa using List.find?_some h
  · rintro rfl
    cases function <;> decide

theorem Dump.isWritable_ofValue (value : Value) :
    (ofValue value).isWritable = Text.isWellFormed value.text := by
  simp [ofValue, Yaml.Node.isWritable, Yaml.areWritable]

theorem Dump.areWritable_functionEntries : Yaml.areWritable functionEntries := by
  decide +kernel

/-- A store can be dumped exactly when all that it shows is well-formed. -/
theorem Store.dump_eq_none_iff {store : Store} {encoder : Yaml.Encoder} :
    (store.dump encoder).2 = none ↔
      (∀ entry ∈ store.values, Text.isWellFormed entry.1 ∧ Text.isWellFormed entry.2.text) ∧
        ∀ entry ∈ store.labels, Text.isWellFormed entry.1 := by
  have hdump : (store.dump encoder).2 = none ↔ Yaml.areWritable (Dump.document store) := by
    rw [Store.dump, encoder.complete_write]
    cases Yaml.areWritable (Dump.document store) <;> simp
  have hvalues : Yaml.areWritable (Dump.variableEntries store) ↔
      ∀ entry ∈ store.values, Text.isWellFormed entry.1 ∧ Text.isWellFormed entry.2.text := by
    rw [Yaml.areWritable_iff, Dump.variableEntries, List.forall_mem_map]
    simp only [Dump.isWritable_ofValue]
  have hlabels : Yaml.areWritable (Dump.labelEntries store) ↔
      ∀ entry ∈ store.labels, Text.isWellFormed entry.1 := by
    rw [Yaml.areWritable_iff, Dump.labelEntries, List.forall_mem_map]
    simp only [Yaml.Node.isWritable, and_true]
  rw [hdump, ← hvalues, ← hlabels]
  simp [Dump.document, Yaml.areWritable, Yaml.Node.isWritable, Dump.areWritable_functionEntries]

namespace Dump

variable {store other : Store}

/-- What a dump shows under the name of a variable. -/
def valueNode? (store : Store) (name : Bytes) : Option Node :=
  (store.value? name).map fun value =>
    .mapping [(utf8 "type", .text value.kind.name), (utf8 "value", .text value.text)]

def functionNode? (name : Bytes) : Option Node :=
  (Builtin.ofName? name).map fun function => .text function.contract.describe

def labelNode? (store : Store) (name : Bytes) : Option Node :=
  (store.label? name).map .integer

theorem lists_variableEntries (h : store.Ordered) :
    Table.Lists (variableEntries store) (valueNode? store) :=
  h.values.lists.map ofValue

theorem lists_labelEntries (h : store.Ordered) :
    Table.Lists (labelEntries store) (labelNode? store) :=
  h.labels.lists.map Node.integer

theorem lists_functionEntries : Table.Lists functionEntries functionNode? := by
  constructor
  · have hnames : functionEntries.map Prod.fst = Builtin.all.map Builtin.name := by
      simp [functionEntries]
    rw [Table.Ascending, Table.names, hnames]
    decide
  · intro name node
    have hall : ∀ function, function ∈ Builtin.all := by
      intro function
      cases function <;> decide
    simp [functionEntries, functionNode?, Builtin.ofName?_eq_some_iff, hall]

def assemble (store : Store) (values functions labels : List Bytes) : List (Bytes × Node) :=
  [(utf8 "variables", .mapping (Table.ofNames values (valueNode? store))),
    (utf8 "functions", .mapping (Table.ofNames functions functionNode?)),
    (utf8 "labels", .mapping (Table.ofNames labels (labelNode? store)))]

theorem document_eq_assemble (h : store.Ordered) {values functions labels : List Bytes}
    (hvariables : Table.Enumerates values (valueNode? store))
    (hfunctions : Table.Enumerates functions functionNode?)
    (hlabels : Table.Enumerates labels (labelNode? store)) :
    document store = assemble store values functions labels := by
  rw [document, assemble, (lists_variableEntries h).eq hvariables.lists,
    lists_functionEntries.eq hfunctions.lists, (lists_labelEntries h).eq hlabels.lists]

theorem document_congr (h : store.Ordered) (hother : other.Ordered)
    (hvalues : ∀ name, other.value? name = store.value? name)
    (hlabels : ∀ name, other.label? name = store.label? name) :
    document other = document store := by
  have hvariables : valueNode? other = valueNode? store := by
    funext name
    rw [valueNode?, valueNode?, hvalues]
  have hbound : labelNode? other = labelNode? store := by
    funext name
    rw [labelNode?, labelNode?, hlabels]
  have hvariableEntries : variableEntries other = variableEntries store :=
    (hvariables ▸ lists_variableEntries hother).eq (lists_variableEntries h)
  have hlabelEntries : labelEntries other = labelEntries store :=
    (hbound ▸ lists_labelEntries hother).eq (lists_labelEntries h)
  rw [document, document, hvariableEntries, hlabelEntries]

/-- A dump lists each variable, function and label once, in ascending order of the names and as it
is in the end. It does not matter what has been done to the store before, what of it was refused and
in what order the names are gone through. -/
theorem document_after (changes : List Store.Change) :
    (∃ values functions labels,
      document (.after changes) =
        [(utf8 "variables", .mapping values), (utf8 "functions", .mapping functions),
          (utf8 "labels", .mapping labels)] ∧
      Table.Lists values (valueNode? (.after changes)) ∧ Table.Lists functions functionNode? ∧
      Table.Lists labels (labelNode? (.after changes))) ∧
    (∀ values functions labels,
      Table.Enumerates values (valueNode? (.after changes)) →
      Table.Enumerates functions functionNode? →
      Table.Enumerates labels (labelNode? (.after changes)) →
      document (.after changes) = assemble (.after changes) values functions labels) ∧
    ∀ others,
      (∀ name, (Store.after others).value? name = (Store.after changes).value? name) →
      (∀ name, (Store.after others).label? name = (Store.after changes).label? name) →
      document (.after others) = document (.after changes) := by
  have hordered := Store.ordered_after changes
  refine ⟨?_, ?_, ?_⟩
  · exact ⟨_, _, _, rfl, lists_variableEntries hordered, lists_functionEntries,
      lists_labelEntries hordered⟩
  · intro values functions labels
    exact document_eq_assemble hordered
  · intro others
    exact document_congr hordered (Store.ordered_after others)

/-- Two variables and a label; the last two changes are refused. -/
def straight : List Store.Change :=
  [.declare (utf8 "b") .nat (.int 5), .declare (utf8 "a") .txt (.txt (utf8 "x")),
    .defineLabel (utf8 "again") 2, .defineLabel (utf8 "again") 3,
    .declare (utf8 "a") .lab (.lab (utf8 "again"))]

/-- The same by a detour; the first two changes and the assignment of a negative number are
refused. -/
def winding : List Store.Change :=
  [.assign (utf8 "b") (.nat 5), .declare (utf8 "c") .nat (.int (-1)),
    .defineLabel (utf8 "again") 2, .declare (utf8 "a") .txt .empty, .setLastError (utf8 "late"),
    .declare (utf8 "b") .nat (.nat 7), .assign (utf8 "a") (.txt (utf8 "x")),
    .assign (utf8 "b") (.nat 5), .assign (utf8 "b") (.int (-5)), .reset]

theorem document_after_winding :
    (Store.after straight).value? (utf8 "b") = some (.nat 5) ∧
    document (.after winding) = document (.after straight) ∧
    document (.after straight) =
      assemble (.after straight) (Store.after straight).values.names.reverse
        (Table.names functionEntries).reverse (Store.after straight).labels.names.reverse := by
  have hordered := Store.ordered_after straight
  have hsame : Store.after winding = Store.after straight := by decide
  obtain ⟨-, hassemble, hcongr⟩ := document_after straight
  refine ⟨by decide, ?_, ?_⟩
  · apply hcongr <;> simp [hsame]
  · apply hassemble
    · exact (lists_variableEntries hordered).enumerates_reverse
    · exact lists_functionEntries.enumerates_reverse
    · exact (lists_labelEntries hordered).enumerates_reverse

end Dump

end LineScript
