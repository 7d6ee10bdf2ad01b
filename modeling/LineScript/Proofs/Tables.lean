import LineScript.Table
import Mathlib.Data.List.Sort

/-!
What a table holds. An entry stands in a table exactly when it is found under its name, so a table
is known by what is found in it, and it does not matter in what order its names are gone through if
they are sorted before its entries are looked up.
-/

namespace LineScript.Table

variable {α β : Type}

theorem mem_of_find? {table : Table α} {name : Bytes} {entry : α}
    (h : table.find? name = some entry) : (name, entry) ∈ table := by
  induction table with
  | nil => cases h
  | cons first rest ih =>
      obtain ⟨key, value⟩ := first
      rw [find?_cons] at h
      split at h
      · next heq =>
          cases h
          rw [heq]
          exact List.mem_cons_self
      · exact List.mem_cons_of_mem _ (ih h)

theorem find?_of_mem {table : Table α} {name : Bytes} {entry : α} (h : table.Ascending)
    (hmem : (name, entry) ∈ table) : table.find? name = some entry := by
  induction table with
  | nil => cases hmem
  | cons first rest ih =>
      obtain ⟨key, value⟩ := first
      obtain ⟨hfirst, hrest⟩ := List.pairwise_cons.mp h
      rw [find?_cons]
      rcases List.mem_cons.mp hmem with heq | hmem
      · cases heq
        rw [if_pos rfl]
      · have hlt : key < name := hfirst name (List.mem_map_of_mem hmem)
        have hne : name ≠ key := by
          rintro rfl
          exact List.lt_irrefl _ hlt
        rw [if_neg hne]
        exact ih hrest hmem

/-- A table of what is known by name: it has one entry for each name that something is known by, in
ascending order of the names. -/
structure Lists (table : Table α) (known? : Bytes → Option α) : Prop where
  ascending : table.Ascending
  mem_iff : ∀ name entry, (name, entry) ∈ table ↔ known? name = some entry

theorem Ascending.lists {table : Table α} (h : table.Ascending) : table.Lists table.find? :=
  ⟨h, fun _ _ => ⟨find?_of_mem h, mem_of_find?⟩⟩

/-- There is one table of what is known. -/
theorem Lists.eq {a b : Table α} {known? : Bytes → Option α} (ha : a.Lists known?)
    (hb : b.Lists known?) : a = b := by
  -- No name stands in a table twice, so the entries are ordered by their names alone.
  have : Std.Irrefl fun x y : Bytes × α => x.1 < y.1 := ⟨fun x => List.lt_irrefl x.1⟩
  have : Std.Antisymm fun x y : Bytes × α => x.1 < y.1 :=
    ⟨fun _ _ hxy hyx => absurd hyx (List.lt_asymm hxy)⟩
  refine (List.pairwise_map.mp ha.ascending).eq_of_mem_iff (List.pairwise_map.mp hb.ascending) ?_
  rintro ⟨name, entry⟩
  rw [ha.mem_iff, hb.mem_iff]

theorem eq_of_find?_eq {a b : Table α} (ha : a.Ascending) (hb : b.Ascending)
    (h : ∀ name, a.find? name = b.find? name) : a = b := by
  have hsame : a.find? = b.find? := funext h
  exact ha.lists.eq (hsame ▸ hb.lists)

theorem Lists.map {table : Table α} {known? : Bytes → Option α} (h : table.Lists known?)
    (f : α → β) :
    Lists (List.map (fun entry => (entry.1, f entry.2)) table) fun name => (known? name).map f := by
  constructor
  · have hnames : names (List.map (fun entry => (entry.1, f entry.2)) table) = table.names := by
      simp [names]
    rw [Ascending, hnames]
    exact h.ascending
  · intro name shown
    simp [h.mem_iff]

/-- The names that something is known by, each once and in any order. -/
structure Enumerates (names : List Bytes) (known? : Bytes → Option α) : Prop where
  nodup : names.Nodup
  mem_iff : ∀ name, name ∈ names ↔ (known? name).isSome

theorem Lists.enumerates_reverse {table : Table α} {known? : Bytes → Option α}
    (h : table.Lists known?) : Enumerates table.names.reverse known? := by
  constructor
  · rw [List.nodup_reverse]
    apply h.ascending.imp
    rintro name _ hlt rfl
    exact List.lt_irrefl name hlt
  · intro name
    simp [names, h.mem_iff, Option.isSome_iff_exists]

def ofNames (names : List Bytes) (known? : Bytes → Option α) : Table α :=
  (names.mergeSort (· ≤ ·)).filterMap fun name => (known? name).map fun entry => (name, entry)

theorem pairwise_mergeSort_lt {names : List Bytes} (h : names.Nodup) :
    (names.mergeSort (· ≤ ·)).Pairwise (· < ·) := by
  have hsorted : (names.mergeSort (· ≤ ·)).Pairwise fun a b => decide (a ≤ b) = true := by
    apply List.pairwise_mergeSort
    · intro a b c hab hbc
      exact decide_eq_true (List.le_trans (of_decide_eq_true hab) (of_decide_eq_true hbc))
    · intro a b
      simpa using List.le_total a b
  have hdistinct : (names.mergeSort (· ≤ ·)).Nodup := (List.mergeSort_perm names _).nodup_iff.mpr h
  refine (hsorted.and hdistinct).imp ?_
  rintro a b ⟨hle, hne⟩
  exact (List.le_iff_lt_or_eq.mp (of_decide_eq_true hle)).resolve_right hne

theorem Enumerates.lists {names : List Bytes} {known? : Bytes → Option α}
    (h : Enumerates names known?) : (ofNames names known?).Lists known? := by
  constructor
  · rw [Ascending, Table.names, List.pairwise_map, ofNames, List.pairwise_filterMap]
    refine (pairwise_mergeSort_lt h.nodup).imp ?_
    intro a b hlt x hx y hy
    obtain ⟨_, -, rfl⟩ := Option.map_eq_some_iff.mp hx
    obtain ⟨_, -, rfl⟩ := Option.map_eq_some_iff.mp hy
    exact hlt
  · intro name entry
    simp only [ofNames, List.mem_filterMap, List.mem_mergeSort, Option.map_eq_some_iff]
    constructor
    · rintro ⟨_, -, _, hknown, hentry⟩
      cases hentry
      exact hknown
    · intro hknown
      exact ⟨name, (h.mem_iff name).mpr (by simp [hknown]), entry, hknown, rfl⟩

end LineScript.Table
