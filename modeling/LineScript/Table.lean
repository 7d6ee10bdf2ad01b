import LineScript.Text.Bytes

/-!
Tables: what is known by name. Entries stand in strictly ascending order of their names, byte by
byte, so two tables with the same entries are the same list.
-/

namespace LineScript

abbrev Table (α : Type) := List (Bytes × α)

namespace Table

variable {α : Type}

def find? (table : Table α) (name : Bytes) : Option α :=
  table.lookup name

def insert (name : Bytes) (entry : α) : Table α → Table α
  | [] => [(name, entry)]
  | (other, old) :: rest =>
      if name = other then (name, entry) :: rest
      else if name < other then (name, entry) :: (other, old) :: rest
      else (other, old) :: insert name entry rest

def names (table : Table α) : List Bytes :=
  table.map Prod.fst

def Ascending (table : Table α) : Prop :=
  table.names.Pairwise (· < ·)

theorem find?_cons (table : Table α) (name other : Bytes) (entry : α) :
    find? ((other, entry) :: table) name = if name = other then some entry else find? table name := by
  by_cases h : name = other
  · simp [find?, h]
  · simp [find?, List.lookup_cons, beq_eq_false_iff_ne.mpr h, h]

theorem find?_insert (table : Table α) (name other : Bytes) (entry : α) :
    (insert name entry table).find? other =
      if other = name then some entry else table.find? other := by
  induction table with
  | nil => simp [insert, find?_cons]
  | cons first rest ih =>
      obtain ⟨key, old⟩ := first
      rw [insert]
      split
      · next h =>
          subst h
          simp only [find?_cons]
          split <;> rfl
      · next hne =>
          split
          · rw [find?_cons]
          · rw [find?_cons, find?_cons, ih]
            by_cases hother : other = key
            · have hname : other ≠ name := fun h => hne (h ▸ hother)
              simp [hother, Ne.symm hne]
            · simp [hother]

theorem mem_names_insert (table : Table α) (name other : Bytes) (entry : α) :
    other ∈ (insert name entry table).names ↔ other = name ∨ other ∈ table.names := by
  induction table with
  | nil => simp [insert, names]
  | cons first rest ih =>
      obtain ⟨key, old⟩ := first
      rw [insert]
      split
      · next h => simp [names, h]
      · split
        · simp [names]
        · simp only [names, List.map_cons, List.mem_cons] at ih ⊢
          rw [ih]
          exact or_left_comm

theorem ascending_insert {table : Table α} (h : table.Ascending) (name : Bytes) (entry : α) :
    (insert name entry table).Ascending := by
  induction table with
  | nil => simp [insert, Ascending, names]
  | cons first rest ih =>
      obtain ⟨key, old⟩ := first
      have hrest : Ascending rest := (List.pairwise_cons.mp h).2
      have hkey : ∀ other ∈ names rest, key < other := (List.pairwise_cons.mp h).1
      rw [insert]
      split
      · next heq =>
          subst heq
          exact h
      · next hne =>
          split
          · next hlt =>
              refine List.pairwise_cons.mpr ⟨?_, h⟩
              intro other hmem
              rcases List.mem_cons.mp hmem with heq | hin
              · exact heq ▸ hlt
              · exact List.lt_trans hlt (hkey other hin)
          · next hnlt =>
              have hlt : key < name := by
                rcases List.le_iff_lt_or_eq.mp (List.not_lt.mp hnlt) with hlt | heq
                · exact hlt
                · exact absurd heq.symm hne
              refine List.pairwise_cons.mpr ⟨?_, ih hrest⟩
              intro other hmem
              rcases (mem_names_insert rest name other entry).mp hmem with heq | hin
              · exact heq ▸ hlt
              · exact hkey other hin

end Table

end LineScript
