import LineScript.Proofs.Words

/-!
Scanning with strict look-ups. An element is looked up and a list is cut at an index here, a token is
made from a word that may not be empty, and the innermost enclosure is taken off what may be nothing.
Any of these that goes wrong leaves no result at all. Scanning has a result, the one it has anyway.
-/

namespace LineScript.Strict

/-- The part of a list from an index on, which may not lie beyond its end. -/
def sliceFrom {α : Type} (xs : List α) (first : Nat) : Option (List α) :=
  if first ≤ xs.length then some (xs.drop first) else none

def slice {α : Type} (xs : List α) (first last : Nat) : Option (List α) :=
  if first ≤ last ∧ last ≤ xs.length then some ((xs.take last).drop first) else none

theorem sliceFrom_eq {α : Type} {xs : List α} {first : Nat} (h : first ≤ xs.length) :
    sliceFrom xs first = some (xs.drop first) :=
  if_pos h

theorem slice_eq {α : Type} {xs : List α} {first last : Nat} (h : first ≤ last)
    (h' : last ≤ xs.length) : slice xs first last = some ((xs.take last).drop first) :=
  if_pos ⟨h, h'⟩

/-- The type of a word and what it stands for. Only marked words are cut. -/
def classifyWord (word : Bytes) : Option (TokenType × Bytes) :=
  if (Number.parse? word).isSome then some (.number, word)
  else if 2 ≤ word.length then do
    let first ← word[0]?
    if first = Token.quoteMark ∧ word.getLast? = some Token.quoteMark then
      let text ← slice word 1 (word.length - 1)
      some (.text, text)
    else if first = '!'.toUInt8 then
      let text ← sliceFrom word 1
      some (.label, text)
    else if first = '$'.toUInt8 then
      let text ← sliceFrom word 1
      some (.reference, text)
    else some (Token.classifyWord word)
  else some (Token.classifyWord word)

def token (word : Bytes) (line column : Int) : Option Token :=
  if word = [] then none
  else do
    let (type, text) ← classifyWord word
    some { type, lexeme := word, text, line, column }

theorem classifyWord_eq (word : Bytes) : classifyWord word = some (Token.classifyWord word) := by
  by_cases hnumber : (Number.parse? word).isSome
  · rw [classifyWord, if_pos hnumber, Token.classifyWord, if_pos hnumber]
  by_cases hlong : 2 ≤ word.length
  · obtain ⟨first, rest, rfl⟩ := List.exists_cons_of_length_pos (Nat.lt_of_succ_lt hlong)
    have hcut : slice (first :: rest) 1 ((first :: rest).length - 1) =
        some (first :: rest).tail.dropLast := by
      rw [slice_eq (Nat.le_sub_of_add_le hlong) (Nat.sub_le _ 1), ← List.dropLast_eq_take,
        List.drop_one, List.tail_dropLast]
    have htail : sliceFrom (first :: rest) 1 = some (first :: rest).tail :=
      sliceFrom_eq (Nat.le_of_succ_le hlong)
    rw [classifyWord, if_neg hnumber, if_pos hlong, hcut, htail]
    dsimp only [List.getElem?_cons_zero, Option.bind_eq_bind, Option.bind_some]
    by_cases hquoted : first = Token.quoteMark ∧
        (first :: rest).getLast? = some Token.quoteMark
    · have hmarks : 2 ≤ (first :: rest).length ∧ (first :: rest).head? = some Token.quoteMark ∧
          (first :: rest).getLast? = some Token.quoteMark :=
        ⟨hlong, congrArg some hquoted.1, hquoted.2⟩
      rw [if_pos hquoted, Token.classifyWord, if_neg hnumber, if_pos hmarks]
    rw [if_neg hquoted]
    have hunquoted : ¬ (2 ≤ (first :: rest).length ∧
        (first :: rest).head? = some Token.quoteMark ∧
        (first :: rest).getLast? = some Token.quoteMark) :=
      fun hmarks => hquoted ⟨Option.some.inj hmarks.2.1, hmarks.2.2⟩
    by_cases hlabel : first = '!'.toUInt8
    · rw [if_pos hlabel, Token.classifyWord, if_neg hnumber, if_neg hunquoted,
        if_pos ⟨hlong, congrArg some hlabel⟩]
    rw [if_neg hlabel]
    have hunlabelled : ¬ (2 ≤ (first :: rest).length ∧
        (first :: rest).head? = some '!'.toUInt8) :=
      fun hmark => hlabel (Option.some.inj hmark.2)
    by_cases hreference : first = '$'.toUInt8
    · rw [if_pos hreference, Token.classifyWord, if_neg hnumber, if_neg hunquoted,
        if_neg hunlabelled, if_pos ⟨hlong, congrArg some hreference⟩]
    rw [if_neg hreference]
  · rw [classifyWord, if_neg hnumber, if_neg hlong]

theorem token_eq {word : Bytes} (h : word ≠ []) (line column : Int) :
    token word line column = some (Token.ofWord word line column) := by
  rw [token, if_neg h, classifyWord_eq]
  rfl

def top (scanner : Scanner) : Option Opening :=
  scanner.openings[0]?

def inQuote (scanner : Scanner) : Option Bool :=
  if 0 < scanner.depth then do
    let opening ← top scanner
    some (opening.enclosure = .quote)
  else some false

def flush (scanner : Scanner) : Option (Scanner × List Token) :=
  match scanner.word with
  | none => some (scanner, [])
  | some word => do
      let token ← token (utf8 word.text) word.line word.column
      some ({ scanner with word := none }, [token])

def mark (scanner : Scanner) (c : Char) (column : Nat) : Option Token :=
  token (Text.encode [c]) scanner.line column

def close (scanner : Scanner) (column : Nat) :
    Option (Scanner × List Token) := do
  let opening ← top scanner
  let outer ← sliceFrom scanner.openings 1
  match opening.enclosure with
  | .bracket =>
      let (after, tokens) ← flush scanner
      let closer ← mark scanner ')' column
      some ({ after with openings := outer }, tokens ++ [closer])
  | .quote =>
      let (after, tokens) ← flush (scanner.accumulate '"' column)
      some ({ after with openings := outer }, tokens)

def closes (scanner : Scanner) (c : Char) : Option Bool :=
  if 0 < scanner.depth then do
    let opening ← top scanner
    some (c = opening.enclosure.closing)
  else some false

def feedPlain (scanner : Scanner) (c : Char) (column : Nat) :
    Option (Scanner × List Token) :=
  if Text.isBlank c then flush scanner
  else if c = '(' then do
    let (after, tokens) ← flush scanner
    let opener ← mark scanner c column
    some ({ after with openings := ⟨.bracket, opener⟩ :: after.openings }, tokens ++ [opener])
  else if c = ':' then do
    let (after, tokens) ← flush scanner
    let colon ← mark scanner c column
    some (after, tokens ++ [colon])
  else if c = '"' then do
    let (after, tokens) ← flush scanner
    let opener := scanner.quoteMark column
    some ({ after.accumulate c column with openings := ⟨.quote, opener⟩ :: after.openings }, tokens)
  else some (scanner.accumulate c column, [])

def feed (scanner : Scanner) (c : Char) (column : Nat) :
    Option (Scanner × List Token) :=
  if scanner.escaped then some ({ scanner with escaped := false }.accumulate c column, [])
  else do
    if ← closes scanner c then close scanner column
    else if c = '\\' then some ({ scanner with escaped := true }, [])
    else if ← inQuote scanner then some (scanner.accumulate c column, [])
    else feedPlain scanner c column

def feedLine (scanner : Scanner) (column : Nat) :
    List Char → Option (Scanner × List Token × Nat)
  | [] => some (scanner, [], column)
  | c :: cs => do
      if c = '#' ∧ !scanner.escaped ∧ !(← inQuote scanner) then
        let (after, tokens) ← flush scanner
        some (after, tokens, column + 1)
      else
        let (after, tokens) ← feed scanner c (column + 1)
        let (last, more, column) ← feedLine after (column + 1) cs
        some (last, tokens ++ more, column)

def scanLine (scanner : Scanner) (text : Bytes) :
    Option (Scanner × List Token) := do
  let (read, tokens, column) ←
    feedLine { scanner with line := scanner.line + 1 } 0 (Text.decode text)
  let read := if ← inQuote read then read else { read with escaped := false }
  let (last, more) ← feed read '\n' (column + 1)
  some (last, tokens ++ more)

def readLine (scanner : Scanner) (begun : Statement) (raw : Bytes) :
    Option (Scanner × Statement) := do
  let text := Scanner.trimBreak raw
  let (after, tokens) ← scanLine scanner text
  some (after,
    { number := if begun.source = [] then after.line else begun.number
      source := begun.source ++ [text]
      tokens := begun.tokens ++ tokens })

def atEnd (scanner : Scanner) (begun : Statement) : Option Scanner.Result :=
  if 0 < scanner.depth then do
    let opening ← top scanner
    some (.failed begun opening.unclosed)
  else some .ended

def continueStatement (scanner : Scanner) (begun : Statement) : Source → Option Scan
  | [] => do
      let result ← atEnd scanner begun
      some { scanner, source := [], depths := [scanner.depth], result }
  | .ended :: source => do
      let result ← atEnd scanner begun
      some { scanner, source, depths := [scanner.depth], result }
  | .failed reason :: source =>
      some { scanner, source, depths := [scanner.depth]
             result := .failed begun (.unreadable (scanner.line + 1) reason) }
  | .line raw :: source => do
      let (after, statement) ← readLine scanner begun raw
      if after.openings ≠ [] then
        let scan ← continueStatement after statement source
        some { scan with depths := scanner.depth :: scan.depths }
      else if statement.tokens = [] then
        let scan ← continueStatement after {} source
        some { scan with depths := scanner.depth :: scan.depths }
      else
        some { scanner := after, source, depths := [scanner.depth], result := .statement statement }

section

variable {scanner : Scanner} {tokens : List Token}

theorem inQuote_eq (scanner : Scanner) : inQuote scanner = some scanner.inQuote := by
  rw [inQuote, Scanner.inQuote, Scanner.depth, top]
  cases scanner.openings with
  | nil => rfl
  | cons opening outer => rfl

theorem flush_eq (h : scanner.Spells tokens) : flush scanner = some scanner.flush := by
  rw [flush, Scanner.flush]
  cases hword : scanner.word with
  | none => rfl
  | some word =>
      have hne : utf8 word.text ≠ [] := by
        rw [Text.utf8_eq_encode]
        exact Text.encode_ne_nil (h.begun word hword)
      dsimp only
      rw [token_eq hne]
      rfl

theorem mark_eq (scanner : Scanner) (c : Char) (column : Nat) :
    mark scanner c column = some (scanner.mark c column) :=
  token_eq (Text.encode_ne_nil (List.cons_ne_nil c [])) _ _

theorem close_eq (h : scanner.Spells tokens) {opening : Opening} {outer : List Opening}
    (hopenings : scanner.openings = opening :: outer) (column : Nat) :
    close scanner column = some (scanner.close opening outer column) := by
  have houter : sliceFrom scanner.openings 1 = some outer := by
    rw [hopenings]
    exact sliceFrom_eq (Nat.succ_le_succ (Nat.zero_le _))
  rw [close, top, houter, hopenings, Scanner.close]
  dsimp only [List.getElem?_cons_zero, Option.bind_eq_bind, Option.bind_some]
  cases opening.enclosure with
  | bracket =>
      dsimp only
      rw [flush_eq h, mark_eq]
      rfl
  | quote =>
      dsimp only
      rw [flush_eq (h.accumulate '"' column)]
      rfl

theorem feedPlain_eq (h : scanner.Spells tokens) (c : Char) (column : Nat) :
    feedPlain scanner c column = some (scanner.feedPlain c column) := by
  rw [feedPlain, Scanner.feedPlain, flush_eq h, mark_eq]
  split
  · rfl
  · split
    · rfl
    · split
      · rfl
      · split <;> rfl

theorem feed_eq (h : scanner.Spells tokens) (c : Char) (column : Nat) :
    feed scanner c column = some (scanner.feed c column) := by
  rw [feed, Scanner.feed, inQuote_eq]
  split
  · rfl
  · cases hopenings : scanner.openings with
    | nil =>
        have hcloses : closes scanner c = some false := by simp [closes, Scanner.depth, hopenings]
        rw [hcloses, Scanner.inQuote, hopenings, feedPlain_eq h]
        dsimp only [Option.bind_eq_bind, Option.bind_some]
        split
        · contradiction
        · split <;> rfl
    | cons opening outer =>
        have hcloses : closes scanner c = some (decide (c = opening.enclosure.closing)) := by
          simp [closes, top, Scanner.depth, hopenings]
        rw [hcloses, Scanner.inQuote, hopenings, feedPlain_eq h, close_eq h hopenings]
        dsimp only [Option.bind_eq_bind, Option.bind_some]
        by_cases hclosing : c = opening.enclosure.closing
        · rw [if_pos (decide_eq_true hclosing), if_pos hclosing]
        · rw [if_neg (by simpa using hclosing), if_neg hclosing]
          simp only [decide_eq_true_eq]
          split
          · rfl
          · split <;> rfl

theorem feedLine_eq (h : scanner.Spells tokens) (column : Nat) (cs : List Char) :
    feedLine scanner column cs = some (scanner.feedLine column cs) := by
  induction cs generalizing scanner tokens column with
  | nil => rfl
  | cons c cs ih =>
      have hcomment : (c = '#' ∧ !scanner.escaped ∧ !scanner.inQuote) ↔
          scanner.beginsComment c = true := by
        simp [Scanner.beginsComment, and_assoc]
      rw [feedLine, Scanner.feedLine, inQuote_eq, flush_eq h, feed_eq h]
      dsimp only [Option.bind_eq_bind, Option.bind_some]
      simp only [hcomment]
      split
      · rfl
      · rw [ih (h.feed c (column + 1))]
        rfl

theorem scanLine_eq (h : scanner.Spells tokens) (text : Bytes) :
    scanLine scanner text = some (scanner.scanLine text) := by
  have hnext : Scanner.Spells { scanner with line := scanner.line + 1 } tokens :=
    h.withState _ _ _
  have hread := hnext.feedLine 0 (Text.decode text)
  rw [scanLine, Scanner.scanLine, feedLine_eq hnext]
  generalize Scanner.feedLine _ 0 (Text.decode text) = read at hread
  obtain ⟨read, more, column⟩ := read
  dsimp only [Option.bind_eq_bind, Option.bind_some] at hread ⊢
  rw [inQuote_eq]
  dsimp only [Option.bind_eq_bind, Option.bind_some]
  split
  · rw [feed_eq hread]
    rfl
  · rw [feed_eq (hread.withState _ _ _)]
    rfl

theorem atEnd_eq (scanner : Scanner) (begun : Statement) :
    atEnd scanner begun = some (scanner.atEnd begun) := by
  rw [atEnd, Scanner.atEnd, Scanner.depth, top]
  cases scanner.openings with
  | nil => rfl
  | cons opening outer => rfl

/-- No look-up of a scan goes wrong, wherever its source fails. -/
theorem continueStatement_eq {begun : Statement} (h : scanner.Spells begun.tokens)
    (source : Source) :
    continueStatement scanner begun source = some (scanner.continueStatement begun source) := by
  induction source generalizing scanner begun with
  | nil =>
      rw [continueStatement, atEnd_eq]
      rfl
  | cons answer source ih =>
      cases answer with
      | ended =>
          rw [continueStatement, atEnd_eq]
          rfl
      | failed reason => rfl
      | line raw =>
          have hread : Scanner.Spells (scanner.readLine begun raw).1
              (scanner.readLine begun raw).2.tokens := h.scanLine (Scanner.trimBreak raw)
          have hline : readLine scanner begun raw = some (scanner.readLine begun raw) := by
            rw [readLine, scanLine_eq h]
            rfl
          rw [continueStatement, Scanner.continueStatement, hline]
          generalize scanner.readLine begun raw = read at hread
          obtain ⟨after, statement⟩ := read
          dsimp only [Option.bind_eq_bind, Option.bind_some] at hread ⊢
          split
          · rw [ih hread]
            rfl
          · split
            · rw [ih hread.restart]
              rfl
            · rfl

end

end LineScript.Strict
