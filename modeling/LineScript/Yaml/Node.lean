import LineScript.Text.Decimal
import LineScript.Yaml.Chunk
import LineScript.Yaml.Step

/-!
Documents in YAML: texts, integers and mappings from texts to documents, written in block style with
an indentation of two. A document is written up to the first text that is not well-formed.
-/

namespace LineScript.Yaml

inductive Node where
  | text (text : Bytes)
  | integer (z : Int)
  | mapping (entries : List (Bytes × Node))
  deriving Repr, Inhabited

def isSimpleKey (key : Bytes) : Bool :=
  key.length ≤ 128 && !(Text.decode key).any isBreak

mutual

/-- The steps from the colon of a key on: a text, an integer or a mapping without entries follows on
the same line. The key stands at the given indentation, and if it is not simple, the colon starts a
line. -/
def Node.steps (indent : Nat) (simple : Bool) : Node → List Step
  | .text text =>
      [{ role := .scalar
         line := if simple then none else some indent
         text := ": ".toList ++ writeText (indent + 2) (Text.decode text)
         writable := Text.isWellFormed text }]
  | .integer z =>
      [{ role := .scalar
         line := if simple then none else some indent
         text := ": ".toList ++ Text.decode (Text.Decimal.ofInt z) }]
  | .mapping [] =>
      [{ role := .enter, line := if simple then none else some indent, text := [':'] },
        { role := .leave, text := " \x7b\x7d".toList }]
  | .mapping (entry :: entries) =>
      { role := .enter, line := if simple then none else some indent, text := [':'] } ::
        (entrySteps (indent + 2) (!simple) (entry :: entries) ++ [{ role := .leave, text := [] }])

/-- The steps of the entries of a mapping at the given indentation; `here` tells whether the first
of them goes on with a line that has been started. -/
def entrySteps (indent : Nat) (here : Bool) : List (Bytes × Node) → List Step
  | [] => []
  | (key, node) :: rest =>
      let simple := isSimpleKey key
      let written := writeText (indent + 2) (Text.decode key)
      let marked := if simple then written else "? ".toList ++ written
      { role := .scalar
        line := if here then none else some indent
        text := if here then ' ' :: marked else marked
        writable := Text.isWellFormed key } ::
        (node.steps indent simple ++ entrySteps indent false rest)

end

def documentSteps (entries : List (Bytes × Node)) : List Step :=
  { role := .enter, text := [] } ::
    (entrySteps 0 false entries ++
      [{ role := .leave, text := if entries.isEmpty then "\x7b\x7d".toList else [] },
        { role := .leave, line := some 0, text := [] }])

structure Output where
  chunks : List Bytes
  complete : Bool
  deriving DecidableEq, Repr, Inhabited

/-- Writes a mapping as a document. From a text on that is not well-formed nothing is written, and
the last chunk before it is lost. -/
def write (entries : List (Bytes × Node)) : Output :=
  let steps := documentSteps entries
  if steps.all (·.writable) then
    { chunks := chunks (writeSteps true steps), complete := true }
  else
    { chunks := (chunks (writeSteps true (ready (steps.takeWhile (·.writable))))).dropLast
      complete := false }

end LineScript.Yaml
