import LineScript.Proofs.Readings
import LineScript.Proofs.WholeMachine

/-!
Scanning one text after another. A text that can be scanned to its end leaves the scanner as it was
at the start, but for the number of lines that it has read. So the statements of a text are the same
whatever stands above it, only so many lines further down.
-/

namespace LineScript

def Token.lowered (lines : Nat) (token : Token) : Token :=
  { token with line := token.line + lines }

def Word.lowered (lines : Nat) (word : Word) : Word :=
  { word with line := word.line + lines }

def Opening.lowered (lines : Nat) (opening : Opening) : Opening :=
  { opening with opener := opening.opener.lowered lines }

/-- The statement with so many lines above it. While no line of it has been read it has no number
that could change. -/
def Statement.lowered (lines : Nat) (statement : Statement) : Statement where
  number := if statement.source = [] then statement.number else statement.number + lines
  source := statement.source
  tokens := statement.tokens.map (Token.lowered lines)

def SyntaxCause.lowered (lines : Nat) : SyntaxCause → SyntaxCause
  | unclosed closing opening line => unclosed closing opening (line + lines)
  | cause => cause

def Failure.lowered (lines : Nat) : Failure → Failure
  | malformed token cause => malformed (token.map (Token.lowered lines)) (cause.lowered lines)
  | unreadable line reason => unreadable (line + lines) reason
  | failure => failure

namespace Scanner

def lowered (lines : Nat) (scanner : Scanner) : Scanner :=
  { scanner with
    line := scanner.line + lines
    openings := scanner.openings.map (Opening.lowered lines)
    word := scanner.word.map (Word.lowered lines) }

def Result.lowered (lines : Nat) : Result → Result
  | statement found => statement (found.lowered lines)
  | ended => ended
  | failed part failure => failed (part.lowered lines) (failure.lowered lines)

end Scanner

def Scan.lowered (lines : Nat) (scan : Scan) : Scan :=
  { scan with scanner := scan.scanner.lowered lines, result := scan.result.lowered lines }

@[simp]
theorem Word.token_lowered (lines : Nat) (word : Word) :
    (word.lowered lines).token = word.token.lowered lines := by
  simp [Word.token, Word.lowered, Token.lowered, Token.ofWord]

theorem Statement.lowered_new (lines : Nat) : ({} : Statement).lowered lines = {} :=
  rfl

@[simp]
theorem Opening.enclosure_lowered (lines : Nat) (opening : Opening) :
    (opening.lowered lines).enclosure = opening.enclosure := by
  rw [Opening.lowered]

namespace Scanner

variable (lines : Nat) (scanner : Scanner)

def fedLowered (fed : Scanner × List Token) : Scanner × List Token :=
  (fed.1.lowered lines, fed.2.map (Token.lowered lines))

theorem lowered_new : ({} : Scanner).lowered lines = { line := lines } := by
  rw [lowered, Nat.zero_add]
  rfl

@[simp]
theorem escaped_lowered : (scanner.lowered lines).escaped = scanner.escaped :=
  rfl

@[simp]
theorem openings_lowered :
    (scanner.lowered lines).openings = scanner.openings.map (Opening.lowered lines) :=
  rfl

@[simp]
theorem depth_lowered : (scanner.lowered lines).depth = scanner.depth := by
  simp [depth]

@[simp]
theorem inQuote_lowered : (scanner.lowered lines).inQuote = scanner.inQuote := by
  rw [inQuote, inQuote, openings_lowered]
  cases scanner.openings <;> rfl

@[simp]
theorem pending_lowered :
    (scanner.lowered lines).pending = scanner.pending.map (Token.lowered lines) := by
  rw [pending, pending]
  cases hword : scanner.word <;> simp [lowered, hword]

theorem mark_lowered (c : Char) (column : Nat) :
    (scanner.lowered lines).mark c column = (scanner.mark c column).lowered lines := by
  simp [mark, lowered, Token.lowered, Token.ofWord]

theorem quoteMark_lowered (column : Nat) :
    (scanner.lowered lines).quoteMark column = (scanner.quoteMark column).lowered lines := by
  simp [quoteMark, lowered, Token.lowered]

theorem accumulate_lowered (c : Char) (column : Nat) :
    (scanner.lowered lines).accumulate c column = (scanner.accumulate c column).lowered lines := by
  rw [accumulate, accumulate]
  cases hword : scanner.word <;> simp [lowered, hword, Word.lowered]

theorem close_lowered (opening : Opening) (outer : List Opening) (column : Nat) :
    (scanner.lowered lines).close (opening.lowered lines) (outer.map (Opening.lowered lines))
        column = fedLowered lines (scanner.close opening outer column) := by
  rw [close, close, Opening.enclosure_lowered]
  cases opening.enclosure with
  | bracket =>
      simp only [flush_eq, fedLowered, pending_lowered, mark_lowered, List.map_append,
        List.map_cons, List.map_nil]
      rfl
  | quote =>
      simp only [flush_eq, fedLowered, pending_lowered, accumulate_lowered]
      rfl

theorem feedPlain_lowered (c : Char) (column : Nat) :
    (scanner.lowered lines).feedPlain c column =
      fedLowered lines (scanner.feedPlain c column) := by
  unfold feedPlain
  simp only [flush_eq, pending_lowered, mark_lowered, quoteMark_lowered]
  split
  · rfl
  · split
    · simp only [fedLowered, List.map_append, List.map_cons, List.map_nil]
      rfl
    · split
      · simp only [fedLowered, List.map_append, List.map_cons, List.map_nil]
        rfl
      · split
        · rfl
        · rw [accumulate_lowered]
          rfl

theorem feed_lowered (c : Char) (column : Nat) :
    (scanner.lowered lines).feed c column = fedLowered lines (scanner.feed c column) := by
  rw [feed, feed, escaped_lowered]
  split
  · exact congrArg (·, []) (accumulate_lowered lines { scanner with escaped := false } c column)
  · rw [feedPlain_lowered, accumulate_lowered]
    rcases hopenings : scanner.openings with _ | ⟨opening, outer⟩
    · simp only [openings_lowered, hopenings, List.map_nil]
      split <;> rfl
    · simp only [openings_lowered, hopenings, List.map_cons, close_lowered,
        Opening.enclosure_lowered]
      split
      · rfl
      · split
        · rfl
        · by_cases hquote : opening.enclosure = .quote
          · rw [if_pos hquote, if_pos hquote]
            rfl
          · rw [if_neg hquote, if_neg hquote]

theorem beginsComment_lowered (c : Char) :
    (scanner.lowered lines).beginsComment c = scanner.beginsComment c := by
  simp [beginsComment]

theorem feedLine_lowered (column : Nat) (cs : List Char) :
    (scanner.lowered lines).feedLine column cs =
      ((scanner.feedLine column cs).1.lowered lines,
        (scanner.feedLine column cs).2.1.map (Token.lowered lines),
        (scanner.feedLine column cs).2.2) := by
  induction cs generalizing scanner column with
  | nil => rfl
  | cons c cs ih =>
      rw [feedLine, feedLine, beginsComment_lowered]
      split
      · simp only [flush_eq, pending_lowered]
        rfl
      · rw [feed_lowered]
        simp only [fedLowered, ih, List.map_append]

theorem scanLine_lowered (text : Bytes) :
    (scanner.lowered lines).scanLine text = fedLowered lines (scanner.scanLine text) := by
  have hnext : { scanner.lowered lines with line := (scanner.lowered lines).line + 1 } =
      { scanner with line := scanner.line + 1 }.lowered lines := by
    simp only [lowered]
    congr 1
    omega
  have hrested (read : Scanner) :
      (if read.inQuote then read.lowered lines else { read.lowered lines with escaped := false }) =
        (if read.inQuote then read else { read with escaped := false }).lowered lines := by
    split <;> rfl
  rw [scanLine, scanLine, hnext, feedLine_lowered]
  dsimp only
  rw [inQuote_lowered, hrested, feed_lowered]
  simp only [fedLowered, List.map_append]

theorem readLine_lowered (begun : Statement) (raw : Bytes) :
    (scanner.lowered lines).readLine (begun.lowered lines) raw =
      ((scanner.readLine begun raw).1.lowered lines,
        (scanner.readLine begun raw).2.lowered lines) := by
  rw [readLine, readLine, scanLine_lowered]
  generalize scanner.scanLine (trimBreak raw) = read
  obtain ⟨after, tokens⟩ := read
  by_cases hsource : begun.source = []
  · simp [fedLowered, Statement.lowered, hsource, lowered]
  · simp [fedLowered, Statement.lowered, hsource]

theorem atEnd_lowered (begun : Statement) :
    (scanner.lowered lines).atEnd (begun.lowered lines) =
      (scanner.atEnd begun).lowered lines := by
  rw [atEnd, atEnd, openings_lowered]
  cases scanner.openings <;> rfl

theorem continueStatement_lowered (begun : Statement) (source : Source) :
    (scanner.lowered lines).continueStatement (begun.lowered lines) source =
      (scanner.continueStatement begun source).lowered lines := by
  induction source generalizing scanner begun with
  | nil =>
      rw [continueStatement, continueStatement, atEnd_lowered, depth_lowered]
      rfl
  | cons answer source ih =>
      rcases answer with raw | reason | _
      · rw [continueStatement, continueStatement, readLine_lowered]
        generalize scanner.readLine begun raw = read
        obtain ⟨after, statement⟩ := read
        have hopenings : (after.lowered lines).openings = [] ↔ after.openings = [] := by
          simp [openings_lowered]
        have htokens : (statement.lowered lines).tokens = [] ↔ statement.tokens = [] := by
          simp [Statement.lowered]
        simp only [ne_eq, hopenings, htokens, depth_lowered, ih]
        split
        · rfl
        · split
          · rw [← Statement.lowered_new lines, ih]
            rfl
          · rfl
      · rw [continueStatement, continueStatement, depth_lowered]
        simp only [Scan.lowered, Result.lowered, Failure.lowered, lowered]
        congr 3
        omega
      · rw [continueStatement, continueStatement, atEnd_lowered, depth_lowered]
        rfl

theorem next_lowered (source : Source) :
    (scanner.lowered lines).next source = (scanner.next source).lowered lines :=
  continueStatement_lowered lines scanner {} source

theorem scan_induction {motive : Scanner → Source → Prop}
    (found : ∀ scanner source statement, (scanner.next source).result = .statement statement →
      motive (scanner.next source).scanner (scanner.next source).source → motive scanner source)
    (last : ∀ scanner source,
      (∀ statement, (scanner.next source).result ≠ .statement statement) → motive scanner source)
    (scanner : Scanner) (source : Source) : motive scanner source := by
  by_cases h : ∃ statement, (scanner.next source).result = .statement statement
  · obtain ⟨statement, hresult⟩ := h
    have hshorter : (scanner.next source).source.length < source.length :=
      length_source_continueStatement_lt hresult
    exact found scanner source statement hresult (scan_induction found last _ _)
  · exact last scanner source (not_exists.mp h)
termination_by source.length

theorem scanAll_of_last {scanner : Scanner} {source : Source}
    (h : ∀ statement, (scanner.next source).result ≠ .statement statement) :
    scanner.scanAll source = ([], scanner.next source) := by
  cases hresult : (scanner.next source).result with
  | statement statement => exact absurd hresult (h statement)
  | ended => exact scanAll_of_ended hresult
  | failed part failure => exact scanAll_of_failed hresult

theorem scanAll_lowered (source : Source) :
    (scanner.lowered lines).scanAll source =
      ((scanner.scanAll source).1.map (Statement.lowered lines),
        (scanner.scanAll source).2.lowered lines) := by
  induction scanner, source using scan_induction with
  | found scanner source statement hresult ih =>
      have hfound : ((scanner.lowered lines).next source).result =
          .statement (statement.lowered lines) := by
        rw [next_lowered, Scan.lowered, hresult]
        rfl
      rw [scanAll_of_statement hresult, scanAll_of_statement hfound, next_lowered]
      simp only [Scan.lowered, ih]
      rfl
  | last scanner source hresult =>
      have hlast : ∀ statement, ((scanner.lowered lines).next source).result ≠
          .statement statement := by
        intro statement hfound
        rw [next_lowered, Scan.lowered] at hfound
        cases hscan : (scanner.next source).result with
        | statement found => exact hresult found hscan
        | ended =>
            rw [hscan] at hfound
            cases hfound
        | failed part failure =>
            rw [hscan] at hfound
            cases hfound
      rw [scanAll_of_last hresult, scanAll_of_last hlast, next_lowered]
      rfl

end Scanner

theorem Source.lines_map_line (raws : List Bytes) : Source.lines (raws.map .line) = raws := by
  rw [Source.lines, List.filterMap_map]
  exact List.filterMap_some

namespace Scanner

variable {scanner : Scanner} {begun : Statement}

/-- Nothing of the lines that it has read is left in the scanner but their number. -/
def Idle (scanner : Scanner) : Prop :=
  scanner = { line := scanner.line }

theorem idle_new : Idle {} :=
  rfl

/-- What becomes of a line, whatever follows it: it leaves something open, or has nothing in it, or
completes a statement. -/
theorem continueStatement_line (scanner : Scanner) (begun : Statement) (raw : Bytes) :
    ∃ after statement, scanner.readLine begun raw = (after, statement) ∧
      ((after.openings ≠ [] ∧
          ∀ source, scanner.continueStatement begun (.line raw :: source) =
            { after.continueStatement statement source with
              depths := scanner.depth :: (after.continueStatement statement source).depths }) ∨
        (after.openings = [] ∧ statement.tokens = [] ∧
          ∀ source, scanner.continueStatement begun (.line raw :: source) =
            { after.continueStatement {} source with
              depths := scanner.depth :: (after.continueStatement {} source).depths }) ∨
        (after.openings = [] ∧ statement.tokens ≠ [] ∧
          ∀ source, scanner.continueStatement begun (.line raw :: source) =
            { scanner := after, source, depths := [scanner.depth]
              result := .statement statement })) := by
  cases hread : scanner.readLine begun raw with
  | mk after statement =>
      refine ⟨after, statement, rfl, ?_⟩
      by_cases hopen : after.openings = []
      · right
        by_cases htokens : statement.tokens = []
        · refine .inl ⟨hopen, htokens, fun source => ?_⟩
          rw [continueStatement, hread]
          simp only [if_neg (not_not_intro hopen), if_pos htokens]
        · refine .inr ⟨hopen, htokens, fun source => ?_⟩
          rw [continueStatement, hread]
          simp only [if_neg (not_not_intro hopen), if_neg htokens]
      · refine .inl ⟨hopen, fun source => ?_⟩
        rw [continueStatement, hread]
        simp only [if_pos hopen]

/-- Whatever a line ends in, a backslash, a comment or a closed quote, nothing of it stays behind
unless something is open. -/
theorem idle_scanLine {text : Bytes} (h : (scanner.scanLine text).1.openings = []) :
    (scanner.scanLine text).1.Idle := by
  rw [scanLine] at h ⊢
  generalize feedLine _ 0 (Text.decode text) = read at h
  obtain ⟨read, tokens, column⟩ := read
  dsimp only at h ⊢
  -- A line break inside a quote is a character of the text, and the quote stays open.
  cases hquote : read.inQuote with
  | true =>
      rw [if_pos hquote, feed_break_of_inQuote hquote] at h
      obtain ⟨opening, outer, hopenings, -⟩ := exists_openings_of_inQuote hquote
      have hkept : ∀ c column, ({ read with escaped := false }.accumulate c column).openings =
          opening :: outer := by
        intro c column
        rw [accumulate]
        split <;> exact hopenings
      rw [hkept] at h
      cases h
  | false =>
      have hfree : { read with escaped := false }.inQuote = false := hquote
      rw [if_neg (by simp [hquote]), feed_break_of_not_inQuote hfree rfl] at h ⊢
      dsimp only at h
      rw [Idle, h]

theorem idle_continueStatement {source : Source} (hstart : scanner.openings = [] → scanner.Idle)
    (h : ∀ part failure, (scanner.continueStatement begun source).result ≠ .failed part failure) :
    (scanner.continueStatement begun source).scanner.Idle := by
  induction source generalizing scanner begun with
  | nil => exact hstart (openings_of_atEnd h)
  | cons answer source ih =>
      rcases answer with raw | reason | _
      · have hread : (scanner.readLine begun raw).1.openings = [] →
            (scanner.readLine begun raw).1.Idle := idle_scanLine
        obtain ⟨after, statement, hline, ⟨-, hscan⟩ | ⟨-, -, hscan⟩ | ⟨hclosed, -, hscan⟩⟩ :=
          scanner.continueStatement_line begun raw
        · rw [hscan] at h ⊢
          rw [hline] at hread
          exact ih hread h
        · rw [hscan] at h ⊢
          rw [hline] at hread
          exact ih hread h
        · rw [hscan]
          rw [hline] at hread
          exact hread hclosed
      · exact absurd rfl (h _ _)
      · exact hstart (openings_of_atEnd h)

theorem Idle.next {source : Source} {statement : Statement} (h : scanner.Idle)
    (hresult : (scanner.next source).result = .statement statement) :
    (scanner.next source).scanner.Idle := by
  apply idle_continueStatement fun _ => h
  intro part failure hfailed
  cases hresult.symm.trans hfailed

theorem Proceeds.idle {source rest : Source} (h : Proceeds source scanner rest) : scanner.Idle := by
  induction h with
  | start => rfl
  | next _ hresult ih => exact ih.next hresult

theorem Proceeds.after {source rest : Source} (h : Proceeds source scanner rest) :
    After source scanner rest := by
  induction h with
  | start => exact .start
  | next _ _ ih => exact .next ih

theorem Proceeds.scanAll {source rest : Source} (h : Proceeds source scanner rest) :
    ∃ last left, Proceeds source last left ∧ (scanner.scanAll rest).2 = last.next left := by
  induction scanner, rest using scan_induction with
  | found scanner rest statement hresult ih =>
      rw [scanAll_of_statement hresult]
      exact ih (h.next hresult)
  | last scanner rest hresult =>
      rw [scanAll_of_last hresult]
      exact ⟨scanner, rest, h, rfl⟩

theorem After.eq_drop {raws : List Bytes} {rest : Source}
    (h : After (raws.map .line) scanner rest) :
    rest = (raws.map .line).drop scanner.line ∧ scanner.line + rest.length = raws.length := by
  obtain ⟨consumed, hsource, hrests⟩ := h.rests
  obtain ⟨column, htracks⟩ := hrests.tracks
  obtain ⟨taken, left, hraws, rfl, rfl⟩ := List.map_eq_append_iff.mp hsource
  have hline : scanner.line = taken.length := by
    rw [htracks.line, Source.lines_map_line, List.length_map]
  constructor
  · rw [hsource, hline, List.drop_left' (List.length_map _)]
  · rw [hline, hraws, List.length_map, List.length_append]

/-- A source of lines is left in the middle by a scan that yields a statement, and used up by any
other. -/
theorem exists_left_continueStatement (scanner : Scanner) (begun : Statement) (raws : List Bytes) :
    ∃ taken left, raws = taken ++ left ∧
      (scanner.continueStatement begun (raws.map .line)).source = left.map .line ∧
      ((∀ statement, (scanner.continueStatement begun (raws.map .line)).result ≠
        .statement statement) → left = []) := by
  induction raws generalizing scanner begun with
  | nil => exact ⟨[], [], rfl, rfl, fun _ => rfl⟩
  | cons raw raws ih =>
      rw [List.map_cons]
      obtain ⟨after, statement, -, ⟨-, hscan⟩ | ⟨-, -, hscan⟩ | ⟨-, -, hscan⟩⟩ :=
        scanner.continueStatement_line begun raw
      · obtain ⟨taken, left, hraws, hsource, hleft⟩ := ih after statement
        rw [hscan]
        exact ⟨raw :: taken, left, congrArg _ hraws, hsource, hleft⟩
      · obtain ⟨taken, left, hraws, hsource, hleft⟩ := ih after {}
        rw [hscan]
        exact ⟨raw :: taken, left, congrArg _ hraws, hsource, hleft⟩
      · rw [hscan]
        exact ⟨[raw], raws, rfl, rfl, fun h => absurd rfl (h statement)⟩

/-- A statement does not depend on what follows it. -/
theorem continueStatement_append_of_statement {source : Source} {statement : Statement}
    (h : (scanner.continueStatement begun source).result = .statement statement)
    (more : Source) :
    scanner.continueStatement begun (source ++ more) =
      { scanner.continueStatement begun source with
        source := (scanner.continueStatement begun source).source ++ more } := by
  induction source generalizing scanner begun with
  | nil => exact absurd h (atEnd_ne_statement scanner begun statement)
  | cons answer source ih =>
      rcases answer with raw | reason | _
      · rw [List.cons_append]
        obtain ⟨after, found, -, ⟨-, hscan⟩ | ⟨-, -, hscan⟩ | ⟨-, -, hscan⟩⟩ :=
          scanner.continueStatement_line begun raw
        · rw [hscan] at h
          rw [hscan, hscan, ih h]
        · rw [hscan] at h
          rw [hscan, hscan, ih h]
        · rw [hscan, hscan]
      · cases h
      · exact absurd h (atEnd_ne_statement scanner begun statement)

/-- A scan that comes to the end of some lines goes on with what follows them. -/
theorem continueStatement_append_of_ended {raws : List Bytes}
    (hbegun : scanner.openings = [] → begun = {})
    (h : (scanner.continueStatement begun (raws.map .line)).result = .ended) (more : Source) :
    ∃ depths, scanner.continueStatement begun (raws.map .line ++ more) =
      { (scanner.continueStatement begun (raws.map .line)).scanner.next more with depths } := by
  induction raws generalizing scanner begun with
  | nil =>
      have hopenings : scanner.openings = [] := by
        apply openings_of_atEnd
        intro part failure hfailed
        cases h.symm.trans hfailed
      rw [hbegun hopenings]
      exact ⟨_, rfl⟩
  | cons raw raws ih =>
      rw [List.map_cons] at h ⊢
      rw [List.cons_append]
      obtain ⟨after, statement, -, ⟨hopen, hscan⟩ | ⟨-, -, hscan⟩ | ⟨-, -, hscan⟩⟩ :=
        scanner.continueStatement_line begun raw
      · rw [hscan] at h
        obtain ⟨depths, hmore⟩ := ih (fun hclosed => absurd hclosed hopen) h
        rw [hscan, hscan, hmore]
        exact ⟨_, rfl⟩
      · rw [hscan] at h
        obtain ⟨depths, hmore⟩ := ih (fun _ => rfl) h
        rw [hscan, hscan, hmore]
        exact ⟨_, rfl⟩
      · rw [hscan] at h
        cases h

theorem scanAll_of_next_eq {other : Scanner} {source rest : Source} {depths : List Nat}
    (h : scanner.next source = { other.next rest with depths }) :
    ∃ depths, scanner.scanAll source =
      ((other.scanAll rest).1, { (other.scanAll rest).2 with depths }) := by
  have hsame : (scanner.next source).result = (other.next rest).result := by rw [h]
  cases hresult : (other.next rest).result with
  | statement statement =>
      rw [scanAll_of_statement (hsame.trans hresult), scanAll_of_statement hresult, h]
      exact ⟨_, rfl⟩
  | ended =>
      rw [scanAll_of_ended (hsame.trans hresult), scanAll_of_ended hresult, h]
      exact ⟨_, rfl⟩
  | failed part failure =>
      rw [scanAll_of_failed (hsame.trans hresult), scanAll_of_failed hresult, h]
      exact ⟨_, rfl⟩

theorem scanAll_append {raws : List Bytes}
    (h : (scanner.scanAll (raws.map .line)).2.result = .ended) (more : Source) :
    ∃ depths, scanner.scanAll (raws.map .line ++ more) =
      ((scanner.scanAll (raws.map .line)).1 ++
          ((scanner.scanAll (raws.map .line)).2.scanner.scanAll more).1,
        { ((scanner.scanAll (raws.map .line)).2.scanner.scanAll more).2 with depths }) := by
  generalize hsource : raws.map Read.line = source at h ⊢
  induction scanner, source using scan_induction generalizing raws with
  | found scanner source statement hresult ih =>
      subst hsource
      rw [scanAll_of_statement hresult] at h ⊢
      obtain ⟨-, left, -, hleft, -⟩ := exists_left_continueStatement scanner {} raws
      obtain ⟨depths, hjoined⟩ := ih hleft.symm h
      have hscan : scanner.next (raws.map .line ++ more) =
          { scanner.next (raws.map .line) with
            source := (scanner.next (raws.map .line)).source ++ more } :=
        continueStatement_append_of_statement hresult more
      have hfound : (scanner.next (raws.map .line ++ more)).result = .statement statement := by
        rw [hscan]
        exact hresult
      rw [scanAll_of_statement hfound, hscan, hjoined]
      exact ⟨depths, rfl⟩
  | last scanner source hresult =>
      subst hsource
      rw [scanAll_of_last hresult] at h ⊢
      obtain ⟨depths, hscan⟩ := continueStatement_append_of_ended (fun _ => rfl) h more
      exact scanAll_of_next_eq hscan

theorem source_scanAll (scanner : Scanner) (raws : List Bytes) :
    (scanner.scanAll (raws.map .line)).2.source = [] := by
  generalize hsource : raws.map Read.line = source
  induction scanner, source using scan_induction generalizing raws with
  | found scanner source statement hresult ih =>
      subst hsource
      obtain ⟨-, left, -, hleft, -⟩ := exists_left_continueStatement scanner {} raws
      rw [scanAll_of_statement hresult]
      exact ih left hleft.symm
  | last scanner source hresult =>
      subst hsource
      obtain ⟨-, left, -, hleft, hnone⟩ := exists_left_continueStatement scanner {} raws
      rw [scanAll_of_last hresult, next, hleft, hnone hresult]
      rfl

/-- A text that is scanned to its end leaves nothing behind but the number of its lines. -/
theorem scanner_scanAll {raws : List Bytes}
    (h : (scanAll {} (raws.map .line)).2.result = .ended) :
    (scanAll {} (raws.map .line)).2.scanner = { line := raws.length } := by
  have hstart : Proceeds (raws.map .line) {} (raws.map .line) := .start
  obtain ⟨last, left, hproceeds, hlast⟩ := hstart.scanAll
  have hsource := source_scanAll {} raws
  rw [hlast] at h hsource ⊢
  have hidle : (last.next left).scanner.Idle := by
    apply idle_continueStatement fun _ => hproceeds.idle
    intro part failure hfailed
    cases h.symm.trans hfailed
  obtain ⟨-, hline⟩ := (After.next hproceeds.after).eq_drop
  rw [hsource] at hline
  rw [hidle, ← hline]
  rfl

theorem source_ne_nil_of_part? {raws : List Bytes} {part : Statement}
    (hbegun : scanner.openings ≠ [] → begun.source ≠ [])
    (h : (scanner.continueStatement begun (raws.map .line)).result.part? = some part) :
    part.source ≠ [] := by
  induction raws generalizing scanner begun with
  | nil =>
      rw [part?_atEnd h]
      apply hbegun
      intro hopenings
      rw [List.map_nil, continueStatement, atEnd, hopenings] at h
      cases h
  | cons raw raws ih =>
      rw [List.map_cons] at h
      have hread : (scanner.readLine begun raw).2.source ≠ [] :=
        List.append_ne_nil_of_right_ne_nil _ (List.cons_ne_nil _ _)
      obtain ⟨after, statement, hline, ⟨-, hscan⟩ | ⟨hclosed, -, hscan⟩ | ⟨-, -, hscan⟩⟩ :=
        scanner.continueStatement_line begun raw
      · rw [hscan] at h
        rw [hline] at hread
        exact ih (fun _ => hread) h
      · rw [hscan] at h
        exact ih (fun hopen => absurd hclosed hopen) h
      · rw [hscan] at h
        rw [hline] at hread
        obtain rfl := Option.some.inj h
        exact hread

theorem source_ne_nil_of_scanAll {raws : List Bytes} (hidle : scanner.Idle) {found : Statement}
    (h : found ∈ (scanner.scanAll (raws.map .line)).1 ∨
      (scanner.scanAll (raws.map .line)).2.result.part? = some found) :
    found.source ≠ [] := by
  generalize hsource : raws.map Read.line = source at h
  have hclosed : ∀ scanner : Scanner, scanner.Idle → scanner.openings ≠ [] →
      ({} : Statement).source ≠ [] := by
    intro scanner hidle hopenings
    exact absurd (congrArg openings hidle) hopenings
  induction scanner, source using scan_induction generalizing raws with
  | found scanner source statement hresult ih =>
      subst hsource
      rw [scanAll_of_statement hresult, List.mem_cons, or_assoc] at h
      obtain ⟨-, left, -, hleft, -⟩ := exists_left_continueStatement scanner {} raws
      rcases h with rfl | hlater
      · exact source_ne_nil_of_part? (hclosed scanner hidle) (congrArg Result.part? hresult)
      · exact ih (hidle.next hresult) hleft.symm hlater
  | last scanner source hresult =>
      subst hsource
      rw [scanAll_of_last hresult] at h
      rcases h with hmem | hpart
      · cases hmem
      · exact source_ne_nil_of_part? (hclosed scanner hidle) hpart

end Scanner

namespace Source

theorem splitLines_ne_nil {text : Bytes} (h : text ≠ []) : splitLines text ≠ [] := by
  intro hlines
  rw [← flatten_splitLines text, hlines] at h
  exact h rfl

theorem splitLines_append {first : Bytes}
    (h : first = [] ∨ first.getLast? = some Text.lineFeed) (second : Bytes) :
    splitLines (first ++ second) = splitLines first ++ splitLines second ∧
      (splitLines first).length = first.count Text.lineFeed := by
  induction first with
  | nil => exact ⟨rfl, rfl⟩
  | cons b rest ih =>
      have hlast : (b :: rest).getLast? = some Text.lineFeed :=
        h.resolve_left (List.cons_ne_nil b rest)
      by_cases hempty : rest = []
      · subst hempty
        obtain rfl : b = Text.lineFeed := Option.some.inj hlast
        exact ⟨by simp [splitLines], by decide⟩
      · rw [List.getLast?_cons_of_ne_nil hempty] at hlast
        obtain ⟨hlines, hlength⟩ := ih (.inr hlast)
        rw [List.cons_append, splitLines, splitLines, hlines, List.count_cons]
        split
        · next hb =>
            subst hb
            exact ⟨rfl, by simp [hlength]⟩
        · next hb =>
            obtain ⟨line, lines, hsplit⟩ := List.exists_cons_of_ne_nil (splitLines_ne_nil hempty)
            rw [hsplit] at hlength ⊢
            exact ⟨rfl, by simpa [hb] using hlength⟩

end Source

/-- Statements are scanned independently. A text of whole lines that can be scanned to its end may
stand above any other text: the statements of the one are followed by those of the other, which ends
or fails as it would alone, so many lines further down. Before each statement the scanner holds
nothing but the number of the lines that it has read, and these are gone from the source. -/
theorem scan_append {first : Bytes} (hbreak : first = [] ∨ first.getLast? = some Text.lineFeed)
    (hended : (Scanner.scanAll {} (.ofBytes first)).2.result = .ended) (second : Bytes) :
    let lines := first.count Text.lineFeed
    let above := Scanner.scanAll {} (.ofBytes first)
    let alone := Scanner.scanAll {} (.ofBytes second)
    let joined := Scanner.scanAll {} (.ofBytes (first ++ second))
    joined.1 = above.1 ++ alone.1.map (Statement.lowered lines) ∧
      joined.2.result = alone.2.result.lowered lines ∧ joined.2.source = [] ∧
      (∀ statement, statement ∈ alone.1 ∨ alone.2.result.part? = some statement →
        (statement.lowered lines).number = statement.number + lines) ∧
      above.2.scanner = { line := lines } ∧
      ∀ scanner rest, Scanner.Proceeds (.ofBytes (first ++ second)) scanner rest →
        scanner = { line := scanner.line } ∧
          rest = (Source.ofBytes (first ++ second)).drop scanner.line := by
  intro lines above alone joined
  obtain ⟨hsplit, hcount⟩ := Source.splitLines_append hbreak second
  have hsource : Source.ofBytes (first ++ second) =
      (Source.splitLines first).map .line ++ Source.ofBytes second := by
    rw [Source.ofBytes, hsplit, List.map_append, Source.ofBytes]
  have hscanner : above.2.scanner = { line := lines } := by
    have hrestored := Scanner.scanner_scanAll hended
    rw [hcount] at hrestored
    exact hrestored
  obtain ⟨depths, hjoined⟩ := Scanner.scanAll_append hended (Source.ofBytes second)
  have hscan : joined = (above.1 ++ alone.1.map (Statement.lowered lines),
      { alone.2.lowered lines with depths }) := by
    calc joined
        = Scanner.scanAll {} ((Source.splitLines first).map .line ++ Source.ofBytes second) :=
          congrArg (Scanner.scanAll {}) hsource
      _ = _ := hjoined
      _ = (above.1 ++ (above.2.scanner.scanAll (Source.ofBytes second)).1,
            { (above.2.scanner.scanAll (Source.ofBytes second)).2 with depths }) := rfl
      _ = _ := by rw [hscanner, ← Scanner.lowered_new, Scanner.scanAll_lowered]
  rw [hscan]
  refine ⟨rfl, rfl, ?_, ?_, hscanner, ?_⟩
  · exact Scanner.source_scanAll {} (Source.splitLines second)
  · intro statement hfound
    have hlines : statement.source ≠ [] := Scanner.source_ne_nil_of_scanAll Scanner.idle_new hfound
    rw [Statement.lowered, if_neg hlines]
  · intro scanner rest hproceeds
    exact ⟨hproceeds.idle, hproceeds.after.eq_drop.1⟩

def raggedText : Bytes :=
  utf8 "(out 1) \\\n# (note \\\n(out \"2\n\")#\r\n"

def tornText : Bytes :=
  utf8 "x\n(out\n"

/-- The bracket is open in the last of six lines, and the four above it play no part in it. -/
theorem scan_append_ragged :
    (raggedText = [] ∨ raggedText.getLast? = some Text.lineFeed) ∧
      (Scanner.scanAll {} (.ofBytes raggedText)).2.result = .ended ∧
      (Scanner.scanAll {} (.ofBytes (raggedText ++ tornText))).2.result =
        .failed { number := 6, source := [utf8 "(out"], tokens := [.ofWord (utf8 "(") 6 1,
          .ofWord (utf8 "out") 6 2] }
          (.malformed (Token.ofWord (utf8 "(") 6 1) (.unclosed (utf8 ")") (utf8 "(") 6)) := by
  have hbreak : raggedText = [] ∨ raggedText.getLast? = some Text.lineFeed := by decide +kernel
  have hended : (Scanner.scanAll {} (.ofBytes raggedText)).2.result = .ended := by decide +kernel
  refine ⟨hbreak, hended, ?_⟩
  rw [(scan_append hbreak hended tornText).2.1]
  decide +kernel

end LineScript
