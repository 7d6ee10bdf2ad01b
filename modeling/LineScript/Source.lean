import LineScript.Text.Bytes

/-!
Sources of lines. A source answers one read after another: with a line, with a failure, or with the
news that there is no line for now. After its last answer it has come to its end for ever.
-/

namespace LineScript

inductive Read where
  | line (text : Bytes)
  | failed (reason : Bytes)
  | ended
  deriving DecidableEq, Repr, Inhabited

abbrev Source := List Read

namespace Source

/-- The lines of a text, each with the line feed that ends it; the last one may lack it. -/
def splitLines : Bytes → List Bytes
  | [] => []
  | b :: rest =>
      if b = Text.lineFeed then [b] :: splitLines rest
      else
        match splitLines rest with
        | [] => [[b]]
        | line :: lines => (b :: line) :: lines

def ofBytes (text : Bytes) : Source :=
  (splitLines text).map .line

def read : Source → Read × Source
  | [] => (.ended, [])
  | answer :: rest => (answer, rest)

theorem flatten_splitLines (text : Bytes) : (splitLines text).flatten = text := by
  induction text with
  | nil => rfl
  | cons b rest ih =>
      rw [splitLines]
      split
      · simp [ih]
      · split
        · next h => simp_all
        · next h => rw [h] at ih; simpa using ih

example : splitLines (utf8 "a\n\nb") = [utf8 "a\n", utf8 "\n", utf8 "b"] := by decide

end Source

end LineScript
