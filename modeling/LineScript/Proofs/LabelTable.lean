import LineScript.Proofs.Tables
import LineScript.Statement

namespace LineScript

/-- The index of the first statement that declares a label. -/
def declaration? (statements : List Statement) (name : Bytes) : Option Nat :=
  statements.findIdx? fun statement => decide (statement.label? = some name)

section Declarations

variable {statements : List Statement} {statement : Statement} {name : Bytes}

theorem declaration?_eq_none_iff :
    declaration? statements name = none ↔
      ∀ statement ∈ statements, statement.label? ≠ some name := by
  simp [declaration?, List.findIdx?_eq_none_iff]

theorem declaration?_eq_some_iff {index : Nat} :
    declaration? statements name = some index ↔
      (∃ statement, statements[index]? = some statement ∧ statement.label? = some name) ∧
        ∀ earlier < index, ∀ statement, statements[earlier]? = some statement →
          statement.label? ≠ some name := by
  rw [declaration?, List.findIdx?_eq_some_iff_getElem]
  constructor
  · rintro ⟨hindex, hdeclares, hfirst⟩
    refine ⟨⟨_, List.getElem?_eq_getElem hindex, of_decide_eq_true hdeclares⟩, ?_⟩
    intro earlier hlt statement hstatement
    obtain ⟨hearlier, rfl⟩ := List.getElem?_eq_some_iff.mp hstatement
    simpa using hfirst earlier hlt
  · rintro ⟨⟨statement, hstatement, hdeclares⟩, hfirst⟩
    obtain ⟨hindex, rfl⟩ := List.getElem?_eq_some_iff.mp hstatement
    refine ⟨hindex, decide_eq_true hdeclares, ?_⟩
    intro earlier hlt
    simpa using hfirst earlier hlt _ (List.getElem?_eq_getElem (Nat.lt_trans hlt hindex))

theorem declaration?_append {more : List Statement} :
    declaration? (statements ++ more) name =
      (declaration? statements name).or
        ((declaration? more name).map fun index => index + statements.length) := by
  rw [declaration?, List.findIdx?_append]
  rfl

theorem declaration?_append_singleton :
    declaration? (statements ++ [statement]) name =
      (declaration? statements name).or
        (if statement.label? = some name then some statements.length else none) := by
  rw [declaration?_append]
  by_cases h : statement.label? = some name <;> simp [declaration?, h]

theorem declaration?_isSome {index : Nat} (hstatement : statements[index]? = some statement)
    (hlabel : statement.label? = some name) : (declaration? statements name).isSome := by
  rw [Option.isSome_iff_ne_none]
  intro hnone
  exact declaration?_eq_none_iff.mp hnone statement (List.mem_of_getElem? hstatement) hlabel

/-- Where no label is declared twice, a statement that declares a label is the one that counts. -/
theorem declaration?_eq_of_nodup (hdistinct : (statements.filterMap Statement.label?).Nodup)
    {index : Nat} (hstatement : statements[index]? = some statement)
    (hlabel : statement.label? = some name) : declaration? statements name = some index := by
  rw [declaration?_eq_some_iff]
  refine ⟨⟨statement, hstatement, hlabel⟩, ?_⟩
  intro earlier hlt other hother hsame
  obtain ⟨hindex, rfl⟩ := List.getElem?_eq_some_iff.mp hstatement
  obtain ⟨hearlier, rfl⟩ := List.getElem?_eq_some_iff.mp hother
  have hpairwise := List.pairwise_iff_getElem.mp (List.pairwise_filterMap.mp hdistinct)
  exact hpairwise earlier index hearlier hindex hlt name hsame name hlabel rfl

end Declarations

/-- The labels that lines declare, each with the index of the first line that does so. The first
line has the given index. -/
def labelsFrom (index : Nat) : List Statement → Table Int
  | [] => []
  | line :: rest =>
      match line.label? with
      | none => labelsFrom (index + 1) rest
      | some name => (labelsFrom (index + 1) rest).insert name index

theorem ascending_labelsFrom (index : Nat) (lines : List Statement) :
    (labelsFrom index lines).Ascending := by
  induction lines generalizing index with
  | nil => exact .nil
  | cons line rest ih =>
      rw [labelsFrom]
      split
      · exact ih (index + 1)
      · exact Table.ascending_insert (ih (index + 1)) _ _

theorem find?_labelsFrom (index : Nat) (lines : List Statement) (name : Bytes) :
    (labelsFrom index lines).find? name =
      (declaration? lines name).map fun line => Int.ofNat (index + line) := by
  induction lines generalizing index with
  | nil => rfl
  | cons line rest ih =>
      have hlater :
          ((declaration? rest name).map (· + 1)).map (fun line => Int.ofNat (index + line)) =
            (declaration? rest name).map fun line => Int.ofNat (index + 1 + line) := by
        rw [Option.map_map]
        congr 1
        funext line
        show Int.ofNat (index + (line + 1)) = Int.ofNat (index + 1 + line)
        congr 1
        omega
      rw [labelsFrom, declaration?, List.findIdx?_cons]
      cases hlabel : line.label? with
      | none =>
          rw [if_neg (by simp), ← declaration?, hlater]
          exact ih (index + 1)
      | some declared =>
          dsimp only
          rw [Table.find?_insert, ih]
          by_cases heq : name = declared
          · simp [heq]
          · rw [if_neg heq, if_neg (by simp [Ne.symm heq]), ← declaration?, hlater]

end LineScript
