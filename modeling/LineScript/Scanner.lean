import LineScript.Failure
import LineScript.Source
import LineScript.Text.Blank

/-!
Scanning: from lines of a source to statements. The scanner is a machine that is fed one character
after another and yields tokens. An open bracket or quote at the end of a line makes it read the next
line into the same statement. What is open, whether a backslash came last and the word begun so far
outlive a read that fails.
-/

namespace LineScript

/-- What keeps a statement open: a bracket, or a quote whose content is taken as it stands. -/
inductive Enclosure where
  | bracket
  | quote
  deriving DecidableEq, Repr, Inhabited

def Enclosure.closing : Enclosure → Char
  | bracket => ')'
  | quote => '"'

/-- An enclosure that waits to be closed and the token that opened it. -/
structure Opening where
  enclosure : Enclosure
  opener : Token
  deriving DecidableEq, Repr, Inhabited

def Opening.unclosed (opening : Opening) : Failure :=
  .malformed opening.opener
    (.unclosed (Text.encode [opening.enclosure.closing]) opening.opener.lexeme opening.opener.line)

structure Word where
  text : String
  line : Nat
  column : Nat
  deriving DecidableEq, Repr, Inhabited

def Word.token (word : Word) : Token :=
  Token.ofWord (utf8 word.text) word.line word.column

structure Scanner where
  line : Nat := 0
  openings : List Opening := []
  /-- Whether the last character was a backslash that still waits for the next one. -/
  escaped : Bool := false
  word : Option Word := none
  deriving DecidableEq, Repr, Inhabited

namespace Scanner

def depth (scanner : Scanner) : Nat :=
  scanner.openings.length

def inQuote (scanner : Scanner) : Bool :=
  match scanner.openings with
  | [] => false
  | opening :: _ => opening.enclosure = .quote

/-- Adds a character to the word, which begins here unless it has begun before. -/
def accumulate (scanner : Scanner) (c : Char) (column : Nat) : Scanner :=
  match scanner.word with
  | none => { scanner with word := some ⟨String.singleton c, scanner.line, column⟩ }
  | some word => { scanner with word := some { word with text := word.text.push c } }

def flush (scanner : Scanner) : Scanner × List Token :=
  match scanner.word with
  | none => (scanner, [])
  | some word => ({ scanner with word := none }, [word.token])

def mark (scanner : Scanner) (c : Char) (column : Nat) : Token :=
  Token.ofWord (Text.encode [c]) scanner.line column

def quoteMark (scanner : Scanner) (column : Nat) : Token :=
  { type := .plain, lexeme := utf8 "\"", text := utf8 "\"", line := scanner.line, column }

/-- Closes the innermost enclosure. A bracket is a token of its own; a quote ends the word that it
belongs to. -/
def close (scanner : Scanner) (opening : Opening) (outer : List Opening) (column : Nat) :
    Scanner × List Token :=
  match opening.enclosure with
  | .bracket =>
      let (after, tokens) := scanner.flush
      ({ after with openings := outer }, tokens ++ [scanner.mark ')' column])
  | .quote =>
      let (after, tokens) := (scanner.accumulate '"' column).flush
      ({ after with openings := outer }, tokens)

/-- Feeds a character that is neither escaped, nor closes anything, nor stands in a quote. -/
def feedPlain (scanner : Scanner) (c : Char) (column : Nat) : Scanner × List Token :=
  if Text.isBlank c then scanner.flush
  else if c = '(' then
    let (after, tokens) := scanner.flush
    let opener := scanner.mark c column
    ({ after with openings := ⟨.bracket, opener⟩ :: after.openings }, tokens ++ [opener])
  else if c = ':' then
    let (after, tokens) := scanner.flush
    (after, tokens ++ [scanner.mark c column])
  else if c = '"' then
    let (after, tokens) := scanner.flush
    let opener := scanner.quoteMark column
    ({ after.accumulate c column with openings := ⟨.quote, opener⟩ :: after.openings }, tokens)
  else (scanner.accumulate c column, [])

def feed (scanner : Scanner) (c : Char) (column : Nat) : Scanner × List Token :=
  if scanner.escaped then ({ scanner with escaped := false }.accumulate c column, [])
  else
    match scanner.openings with
    | opening :: outer =>
        if c = opening.enclosure.closing then scanner.close opening outer column
        else if c = '\\' then ({ scanner with escaped := true }, [])
        else if opening.enclosure = .quote then (scanner.accumulate c column, [])
        else scanner.feedPlain c column
    | [] =>
        if c = '\\' then ({ scanner with escaped := true }, [])
        else scanner.feedPlain c column

def beginsComment (scanner : Scanner) (c : Char) : Bool :=
  c = '#' && !scanner.escaped && !scanner.inQuote

/-- Feeds the characters of a line up to a comment. The first of them stands right after the given
column; the column of the last one read comes back. -/
def feedLine (scanner : Scanner) (column : Nat) : List Char → Scanner × List Token × Nat
  | [] => (scanner, [], column)
  | c :: cs =>
      if scanner.beginsComment c then
        let (after, tokens) := scanner.flush
        (after, tokens, column + 1)
      else
        let (after, tokens) := scanner.feed c (column + 1)
        let (last, more, column) := after.feedLine (column + 1) cs
        (last, tokens ++ more, column)

/-- Feeds a line and the break after it. Outside quotes a backslash at the end of a line has no
effect. -/
def scanLine (scanner : Scanner) (text : Bytes) : Scanner × List Token :=
  let (read, tokens, column) :=
    { scanner with line := scanner.line + 1 }.feedLine 0 (Text.decode text)
  let read := if read.inQuote then read else { read with escaped := false }
  let (last, more) := read.feed '\n' (column + 1)
  (last, tokens ++ more)

def trimBreak (raw : Bytes) : Bytes :=
  Text.trimEndWhile (fun b => b = Text.lineFeed || b = Text.carriageReturn) raw

def readLine (scanner : Scanner) (begun : Statement) (raw : Bytes) : Scanner × Statement :=
  let text := trimBreak raw
  let (after, tokens) := scanner.scanLine text
  (after,
    { number := if begun.source = [] then after.line else begun.number
      source := begun.source ++ [text]
      tokens := begun.tokens ++ tokens })

inductive Result where
  | statement (statement : Statement)
  | ended
  /-- The statement, of which a part has been read, cannot be completed. -/
  | failed (part : Statement) (failure : Failure)
  deriving DecidableEq, Repr, Inhabited

end Scanner

/-- Scanning one statement: the scanner and the source after it, how many enclosures were open at
each of the reads, and what it came to. -/
structure Scan where
  scanner : Scanner
  source : Source
  depths : List Nat
  result : Scanner.Result
  deriving DecidableEq, Repr, Inhabited

namespace Scanner

/-- What the end of a source means for the statement begun. -/
def atEnd (scanner : Scanner) (begun : Statement) : Result :=
  match scanner.openings with
  | [] => .ended
  | opening :: _ => .failed begun opening.unclosed

/-- Scans the rest of the statement begun. Lines without tokens are passed over. -/
def continueStatement (scanner : Scanner) (begun : Statement) : Source → Scan
  | [] => { scanner, source := [], depths := [scanner.depth], result := scanner.atEnd begun }
  | .ended :: source =>
      { scanner, source, depths := [scanner.depth], result := scanner.atEnd begun }
  | .failed reason :: source =>
      { scanner, source, depths := [scanner.depth]
        result := .failed begun (.unreadable (scanner.line + 1) reason) }
  | .line raw :: source =>
      let (after, statement) := scanner.readLine begun raw
      if after.openings ≠ [] then
        let scan := after.continueStatement statement source
        { scan with depths := scanner.depth :: scan.depths }
      else if statement.tokens = [] then
        let scan := after.continueStatement {} source
        { scan with depths := scanner.depth :: scan.depths }
      else { scanner := after, source, depths := [scanner.depth], result := .statement statement }

def next (scanner : Scanner) (source : Source) : Scan :=
  scanner.continueStatement {} source

theorem length_source_continueStatement_lt {scanner : Scanner} {begun statement : Statement}
    {source : Source}
    (h : (scanner.continueStatement begun source).result = .statement statement) :
    (scanner.continueStatement begun source).source.length < source.length := by
  have hatEnd : ∀ (scanner : Scanner) (begun : Statement),
      scanner.atEnd begun ≠ .statement statement := by
    intro scanner begun
    rw [atEnd]
    split <;> simp
  induction source generalizing scanner begun with
  | nil => exact absurd h (hatEnd scanner begun)
  | cons answer source ih =>
      cases answer with
      | ended => exact absurd h (hatEnd scanner begun)
      | failed reason => simp [continueStatement] at h
      | line raw =>
          rw [continueStatement] at h ⊢
          dsimp only at h ⊢
          split
          · next hopen =>
              rw [if_pos hopen] at h
              exact Nat.lt_succ_of_lt (ih h)
          · next hopen =>
              rw [if_neg hopen] at h
              split
              · next hempty =>
                  rw [if_pos hempty] at h
                  exact Nat.lt_succ_of_lt (ih h)
              · simp

/-- Scans statements until the source ends or fails; the last scan, which yields no statement, comes
back as well. -/
def scanAll (scanner : Scanner) (source : Source) : List Statement × Scan :=
  match h : (scanner.next source).result with
  | .statement statement =>
      have : (scanner.next source).source.length < source.length :=
        length_source_continueStatement_lt h
      let (statements, last) :=
        scanAll (scanner.next source).scanner (scanner.next source).source
      (statement :: statements, last)
  | _ => ([], scanner.next source)
termination_by source.length

end Scanner

end LineScript
