import LineScript.Yaml.Node

namespace LineScript.Yaml

mutual

/-- Whether all texts of a document are well-formed. -/
def Node.isWritable : Node → Bool
  | .text text => Text.isWellFormed text
  | .integer _ => true
  | .mapping entries => areWritable entries

def areWritable : List (Bytes × Node) → Bool
  | [] => true
  | (key, node) :: rest => Text.isWellFormed key && (node.isWritable && areWritable rest)

end

mutual

theorem Node.all_steps (node : Node) (indent : Nat) (simple : Bool) :
    (node.steps indent simple).all (·.writable) = node.isWritable := by
  match node with
  | .text text => simp [Node.steps, Node.isWritable]
  | .integer z => simp [Node.steps, Node.isWritable]
  | .mapping [] => simp [Node.steps, Node.isWritable, areWritable]
  | .mapping (entry :: entries) =>
      simp [Node.steps, Node.isWritable, all_entrySteps (entry :: entries)]

theorem all_entrySteps (entries : List (Bytes × Node)) (indent : Nat) (here : Bool) :
    (entrySteps indent here entries).all (·.writable) = areWritable entries := by
  match entries with
  | [] => simp [entrySteps, areWritable]
  | (key, node) :: rest =>
      simp [entrySteps, areWritable, Node.all_steps node, all_entrySteps rest]

end

/-- A way to lay out a mapping as a document. It writes the document to its end exactly when all its
texts are well-formed. -/
structure Encoder where
  write : List (Bytes × Node) → Output
  complete_write : ∀ entries, (write entries).complete = areWritable entries

def Encoder.block : Encoder where
  write := Yaml.write
  complete_write entries := by
    have hsteps : (documentSteps entries).all (·.writable) = areWritable entries := by
      simp [documentSteps, all_entrySteps]
    rw [Yaml.write, hsteps]
    cases areWritable entries <;> rfl

instance : Inhabited Encoder :=
  ⟨.block⟩

theorem areWritable_iff {entries : List (Bytes × Node)} :
    areWritable entries ↔
      ∀ entry ∈ entries, Text.isWellFormed entry.1 ∧ entry.2.isWritable := by
  induction entries with
  | nil => simp [areWritable]
  | cons entry entries ih => simp [areWritable, ih, and_assoc]

end LineScript.Yaml
