import LineScript.Proofs.Blame

/-!
Where tokens stand. A scanner knows the number of the line that it reads and the column that it has
come to. Every token that it yields begins with the character at the place that the token names, and
the tokens of a statement are in the order of their places. This is kept by every character fed, so
it holds after any number of lines, also where a read fails in the middle of a statement and the
scanner goes on later.
-/

namespace LineScript

namespace Token

def Before (token other : Token) : Prop :=
  token.line < other.line ∨ token.line = other.line ∧ token.column < other.column

def StartsIn (token : Token) (text : Bytes) : Prop :=
  1 ≤ token.column ∧ ∃ c, (Text.decode text)[(token.column - 1).toNat]? = some c ∧
    (Text.decode token.lexeme).head? = some c

theorem StartsIn.ne_nil {token : Token} {text : Bytes} (h : token.StartsIn text) : text ≠ [] := by
  rintro rfl
  obtain ⟨-, c, hc, -⟩ := h
  cases hc

def StandsIn (token : Token) (lines : List Bytes) : Prop :=
  1 ≤ token.line ∧ ∃ text, lines[(token.line - 1).toNat]? = some text ∧ token.StartsIn text

theorem StandsIn.append {token : Token} {lines : List Bytes} (h : token.StandsIn lines)
    (more : List Bytes) : token.StandsIn (lines ++ more) := by
  obtain ⟨hline, text, htext, hstarts⟩ := h
  have hlt := (List.getElem?_eq_some_iff.mp htext).1
  refine ⟨hline, text, ?_, hstarts⟩
  rw [List.getElem?_append_left hlt, htext]

theorem StandsIn.line_le {token : Token} {lines : List Bytes} (h : token.StandsIn lines) :
    token.line ≤ lines.length := by
  obtain ⟨hline, text, htext, -⟩ := h
  have hlt := (List.getElem?_eq_some_iff.mp htext).1
  omega

@[simp]
theorem line_ofWord (word : Bytes) (line column : Int) : (ofWord word line column).line = line :=
  rfl

@[simp]
theorem lexeme_ofWord (word : Bytes) (line column : Int) :
    (ofWord word line column).lexeme = word :=
  rfl

end Token

/-- Words in the order of their places, up to a column of the last of the lines and all of them
after the first `base` lines. -/
structure Placed (base : Nat) (lines : List Bytes) (column : Nat) (words : List Token) : Prop where
  stands : ∀ word ∈ words, word.StandsIn lines
  base_lt : ∀ word ∈ words, (base : Int) < word.line
  upTo : ∀ word ∈ words,
    word.line < lines.length ∨ word.line = lines.length ∧ word.column ≤ column
  ordered : words.Pairwise Token.Before

namespace Placed

variable {base column : Nat} {lines : List Bytes} {words : List Token}

theorem nil (base : Nat) (lines : List Bytes) (column : Nat) : Placed base lines column [] := by
  refine ⟨?_, ?_, ?_, .nil⟩ <;> exact fun word hmem => absurd hmem List.not_mem_nil

theorem sublist {others : List Token} (h : Placed base lines column words)
    (hsublist : others.Sublist words) : Placed base lines column others where
  stands word hmem := h.stands word (hsublist.subset hmem)
  base_lt word hmem := h.base_lt word (hsublist.subset hmem)
  upTo word hmem := h.upTo word (hsublist.subset hmem)
  ordered := h.ordered.sublist hsublist

theorem column_le {later : Nat} (h : Placed base lines column words) (hle : column ≤ later) :
    Placed base lines later words where
  stands := h.stands
  base_lt := h.base_lt
  upTo word hmem := by
    have hupTo := h.upTo word hmem
    omega
  ordered := h.ordered

theorem base_zero (h : Placed base lines column words) : Placed 0 lines column words where
  stands := h.stands
  base_lt word hmem := by
    have hlt := h.base_lt word hmem
    omega
  upTo := h.upTo
  ordered := h.ordered

theorem nextLine (h : Placed base lines column words) (text : Bytes) :
    Placed base (lines ++ [text]) 0 words where
  stands word hmem := (h.stands word hmem).append [text]
  base_lt := h.base_lt
  upTo word hmem := by
    have hle := (h.stands word hmem).line_le
    rw [List.length_append, List.length_singleton]
    omega
  ordered := h.ordered

theorem append {word : Token} (h : Placed base lines column words) (hbase : base < lines.length)
    (hline : word.line = lines.length) (hcolumn : word.column = column + 1)
    (hstands : word.StandsIn lines) : Placed base lines (column + 1) (words ++ [word]) where
  stands other hmem := by
    rcases List.mem_append.mp hmem with hmem | hmem
    · exact h.stands other hmem
    · rwa [List.mem_singleton.mp hmem]
  base_lt other hmem := by
    rcases List.mem_append.mp hmem with hmem | hmem
    · exact h.base_lt other hmem
    · rw [List.mem_singleton.mp hmem]
      omega
  upTo other hmem := by
    rcases List.mem_append.mp hmem with hmem | hmem
    · have hupTo := h.upTo other hmem
      omega
    · rw [List.mem_singleton.mp hmem]
      omega
  ordered := by
    refine List.pairwise_append.mpr ⟨h.ordered, List.pairwise_singleton _ _, ?_⟩
    intro other hmem last hlast
    rw [List.mem_singleton.mp hlast, Token.Before]
    have hupTo := h.upTo other hmem
    omega

theorem replace {word other : Token} (h : Placed base lines column (words ++ [word]))
    (hline : other.line = word.line) (hcolumn : other.column = word.column)
    (hlexeme : ∀ c, (Text.decode word.lexeme).head? = some c →
      (Text.decode other.lexeme).head? = some c) :
    Placed base lines column (words ++ [other]) := by
  have hfront := h.sublist (List.sublist_append_left words [word])
  have hword : word ∈ words ++ [word] := List.mem_append_right _ List.mem_cons_self
  refine ⟨?_, ?_, ?_, ?_⟩
  · intro token hmem
    rcases List.mem_append.mp hmem with hmem | hmem
    · exact hfront.stands token hmem
    · obtain ⟨hfirst, text, htext, hpositive, c, hc, hhead⟩ := h.stands word hword
      rw [← hline] at hfirst htext
      rw [← hcolumn] at hpositive hc
      rw [List.mem_singleton.mp hmem]
      exact ⟨hfirst, text, htext, hpositive, c, hc, hlexeme c hhead⟩
  · intro token hmem
    rcases List.mem_append.mp hmem with hmem | hmem
    · exact hfront.base_lt token hmem
    · rw [List.mem_singleton.mp hmem, hline]
      exact h.base_lt word hword
  · intro token hmem
    rcases List.mem_append.mp hmem with hmem | hmem
    · exact hfront.upTo token hmem
    · rw [List.mem_singleton.mp hmem, hline, hcolumn]
      exact h.upTo word hword
  · refine List.pairwise_append.mpr ⟨hfront.ordered, List.pairwise_singleton _ _, ?_⟩
    intro token hmem last hlast
    rw [List.mem_singleton.mp hlast, Token.Before, hline, hcolumn]
    exact (List.pairwise_append.mp h.ordered).2.2 token hmem word List.mem_cons_self

end Placed

namespace Scanner

/-- The character after the given column of the last line. -/
def At (lines : List Bytes) (column : Nat) (c : Char) : Prop :=
  ∃ text, lines.getLast? = some text ∧ (Text.decode text)[column]? = some c

def pending (scanner : Scanner) : List Token :=
  scanner.word.toList.map Word.token

/-- A scanner that has come to a column of the last of the lines, and the tokens of the statement
so far. A quote stays open for the word that it belongs to, and there is nothing inside it. -/
structure Tracks (base : Nat) (lines : List Bytes) (column : Nat) (scanner : Scanner)
    (tokens : List Token) : Prop where
  line : scanner.line = lines.length
  placed : Placed base lines column (tokens ++ scanner.pending)
  openers : ∀ opening ∈ scanner.openings, opening.opener.StandsIn lines
  outer : ∀ opening ∈ scanner.openings.tail, opening.enclosure = .bracket
  quoted : scanner.inQuote → scanner.word ≠ none

@[simp]
theorem flush_eq (scanner : Scanner) :
    scanner.flush = ({ scanner with word := none }, scanner.pending) := by
  obtain ⟨line, openings, escaped, word⟩ := scanner
  cases word <;> rfl

theorem standsIn_of_at {lines : List Bytes} {column : Nat} {c : Char} {token : Token}
    (h : At lines column c) (hline : token.line = lines.length)
    (hcolumn : token.column = column + 1) (hlexeme : token.lexeme = Text.encode [c]) :
    token.StandsIn lines := by
  obtain ⟨text, hlast, hchar⟩ := h
  rw [List.getLast?_eq_getElem?] at hlast
  have hlt := (List.getElem?_eq_some_iff.mp hlast).1
  refine ⟨by omega, text, ?_, by omega, c, ?_, ?_⟩
  · rwa [hline, show ((lines.length : Int) - 1).toNat = lines.length - 1 by omega]
  · rwa [hcolumn, show ((column : Int) + 1 - 1).toNat = column by omega]
  · rw [hlexeme, Text.decode_encode]
    rfl

namespace Tracks

variable {base column : Nat} {lines : List Bytes} {scanner : Scanner} {tokens : List Token}
  {c : Char}

theorem standsIn_mark (h : Tracks base lines column scanner tokens) (hc : At lines column c) :
    (scanner.mark c (column + 1)).StandsIn lines := by
  refine standsIn_of_at hc ?_ rfl rfl
  rw [mark, Token.line_ofWord, h.line]

theorem column_le {later : Nat} (h : Tracks base lines column scanner tokens)
    (hle : column ≤ later) : Tracks base lines later scanner tokens :=
  ⟨h.line, h.placed.column_le hle, h.openers, h.outer, h.quoted⟩

theorem withEscaped (h : Tracks base lines column scanner tokens) (escaped : Bool) :
    Tracks base lines column { scanner with escaped } tokens :=
  ⟨h.line, h.placed, h.openers, h.outer, h.quoted⟩

theorem bracket_of_inQuote (h : Tracks base lines column scanner tokens)
    (hquote : scanner.inQuote = false) :
    ∀ opening ∈ scanner.openings, opening.enclosure = .bracket := by
  have houter := h.outer
  rw [inQuote] at hquote
  cases hopenings : scanner.openings with
  | nil => exact fun opening hmem => absurd hmem List.not_mem_nil
  | cons first rest =>
      rw [hopenings] at hquote houter
      intro opening hmem
      rcases List.mem_cons.mp hmem with rfl | hmem
      · cases henclosure : opening.enclosure with
        | bracket => rfl
        | quote => simp [henclosure] at hquote
      · exact houter opening hmem

theorem accumulate (h : Tracks base lines column scanner tokens) (hbase : base < lines.length)
    (hc : scanner.word = none → At lines column c) :
    Tracks base lines (column + 1) (scanner.accumulate c (column + 1)) tokens := by
  have hplaced := h.placed
  rw [Scanner.accumulate]
  cases hword : scanner.word with
  | none =>
      refine ⟨h.line, ?_, h.openers, h.outer, fun _ => Option.some_ne_none _⟩
      rw [pending, hword] at hplaced
      refine (hplaced.sublist (List.sublist_append_left _ _)).append hbase ?_ rfl ?_
      · exact congrArg Int.ofNat h.line
      · refine standsIn_of_at (hc hword) (congrArg Int.ofNat h.line) rfl ?_
        rw [Word.token, Token.lexeme_ofWord, Text.utf8_eq_encode, String.toList_singleton]
  | some word =>
      refine ⟨h.line, ?_, h.openers, h.outer, fun _ => Option.some_ne_none _⟩
      rw [pending, hword] at hplaced
      refine (hplaced.column_le (Nat.le_succ column)).replace rfl rfl ?_
      intro first hfirst
      rw [Word.token, Token.lexeme_ofWord, Text.utf8_eq_encode, Text.decode_encode] at hfirst ⊢
      rw [String.toList_push, List.head?_append, hfirst]
      rfl

theorem flush (h : Tracks base lines column scanner tokens) {openings : List Opening}
    (hopeners : ∀ opening ∈ openings, opening.opener.StandsIn lines)
    (hbracket : ∀ opening ∈ openings, opening.enclosure = .bracket) :
    Tracks base lines column { scanner with openings, word := none }
      (tokens ++ scanner.pending) := by
  refine ⟨h.line, ?_, hopeners, ?_, ?_⟩
  · show Placed base lines column (tokens ++ scanner.pending ++ [])
    rw [List.append_nil]
    exact h.placed
  · intro opening hmem
    exact hbracket opening (List.mem_of_mem_tail hmem)
  · intro hquote
    cases openings with
    | nil => cases hquote
    | cons first rest => simp [inQuote, hbracket first List.mem_cons_self] at hquote

theorem emit (h : Tracks base lines column scanner tokens) (hbase : base < lines.length)
    (hword : scanner.word = none) (hc : At lines column c) :
    Tracks base lines (column + 1) scanner (tokens ++ [scanner.mark c (column + 1)]) := by
  have hplaced := h.placed
  refine ⟨h.line, ?_, h.openers, h.outer, h.quoted⟩
  rw [pending, hword] at hplaced ⊢
  simp only [Option.toList_none, List.map_nil, List.append_nil] at hplaced ⊢
  refine hplaced.append hbase ?_ rfl (h.standsIn_mark hc)
  rw [mark, Token.line_ofWord, h.line]

theorem close {opening : Opening} {outer : List Opening}
    (h : Tracks base lines column scanner tokens) (hbase : base < lines.length)
    (hopenings : scanner.openings = opening :: outer)
    (hc : At lines column opening.enclosure.closing) :
    Tracks base lines (column + 1) (scanner.close opening outer (column + 1)).1
      (tokens ++ (scanner.close opening outer (column + 1)).2) := by
  have houter := h.outer
  have hopeners := h.openers
  rw [hopenings] at houter hopeners
  have hstands : ∀ opening ∈ outer, opening.opener.StandsIn lines :=
    fun opening hmem => hopeners opening (List.mem_cons_of_mem _ hmem)
  rw [Scanner.close]
  cases henclosure : opening.enclosure with
  | bracket =>
      have hparen : At lines column ')' := by rwa [henclosure] at hc
      simpa [mark] using (h.flush hstands houter).emit hbase rfl hparen
  | quote =>
      have hquote : scanner.word ≠ none := by
        refine h.quoted ?_
        simp [inQuote, hopenings, henclosure]
      have hword := h.accumulate hbase (c := '"') fun hnone => absurd hnone hquote
      simpa using hword.flush hstands houter

theorem feedPlain (h : Tracks base lines column scanner tokens) (hbase : base < lines.length)
    (hquote : scanner.inQuote = false) (hc : At lines column c) :
    Tracks base lines (column + 1) (scanner.feedPlain c (column + 1)).1
      (tokens ++ (scanner.feedPlain c (column + 1)).2) := by
  have hbracket := h.bracket_of_inQuote hquote
  have hflushed := h.flush h.openers hbracket
  rw [Scanner.feedPlain]
  split
  · rw [flush_eq]
    exact hflushed.column_le (Nat.le_succ column)
  · split
    · have hopened : Tracks base lines column
          { scanner with
            openings := ⟨.bracket, scanner.mark c (column + 1)⟩ :: scanner.openings, word := none }
          (tokens ++ scanner.pending) := by
        refine h.flush ?_ ?_
        · exact List.forall_mem_cons.mpr ⟨h.standsIn_mark hc, h.openers⟩
        · exact List.forall_mem_cons.mpr ⟨rfl, hbracket⟩
      simpa [mark] using hopened.emit hbase rfl hc
    · split
      · simpa [mark] using hflushed.emit hbase rfl hc
      · split
        · next hmark =>
            have hword := hflushed.accumulate hbase fun _ => hc
            have hopener : (scanner.quoteMark (column + 1)).StandsIn lines := by
              refine standsIn_of_at hc (congrArg Int.ofNat h.line) rfl ?_
              rw [hmark]
              rfl
            rw [flush_eq]
            refine ⟨hword.line, hword.placed, ?_, hbracket, fun _ => Option.some_ne_none _⟩
            exact List.forall_mem_cons.mpr ⟨hopener, h.openers⟩
        · rw [List.append_nil]
          exact h.accumulate hbase fun _ => hc

theorem feed (h : Tracks base lines column scanner tokens) (hbase : base < lines.length)
    (hc : At lines column c) :
    Tracks base lines (column + 1) (scanner.feed c (column + 1)).1
      (tokens ++ (scanner.feed c (column + 1)).2) := by
  have hescape :
      Tracks base lines (column + 1) { scanner with escaped := true } (tokens ++ []) := by
    rw [List.append_nil]
    exact (h.column_le (Nat.le_succ column)).withEscaped true
  rw [Scanner.feed]
  split
  · rw [List.append_nil]
    exact (h.withEscaped false).accumulate hbase fun _ => hc
  · split
    · next opening outer hopenings =>
        split
        · next hclosing =>
            rw [hclosing] at hc
            exact h.close hbase hopenings hc
        · split
          · exact hescape
          · split
            · rw [List.append_nil]
              exact h.accumulate hbase fun _ => hc
            · next hbracket =>
                refine h.feedPlain hbase ?_ hc
                rw [inQuote, hopenings]
                exact decide_eq_false hbracket
    · next hopenings =>
        split
        · exact hescape
        · refine h.feedPlain hbase ?_ hc
          rw [inQuote, hopenings]

theorem feedLine {text : Bytes} {cs : List Char} (h : Tracks base lines column scanner tokens)
    (hbase : base < lines.length) (hlast : lines.getLast? = some text)
    (hcs : (Text.decode text).drop column = cs) :
    Tracks base lines (scanner.feedLine column cs).2.2 (scanner.feedLine column cs).1
      (tokens ++ (scanner.feedLine column cs).2.1) := by
  induction cs generalizing column scanner tokens with
  | nil =>
      rw [Scanner.feedLine, List.append_nil]
      exact h
  | cons c cs ih =>
      have hc : (Text.decode text)[column]? = some c := by
        rw [← List.head?_drop, hcs]
        rfl
      have hrest : (Text.decode text).drop (column + 1) = cs := by
        rw [← List.tail_drop, hcs]
        rfl
      rw [Scanner.feedLine]
      split
      · next hcomment =>
          have hquote : scanner.inQuote = false := by
            simp [beginsComment] at hcomment
            exact hcomment.2
          rw [flush_eq]
          exact (h.flush h.openers (h.bracket_of_inQuote hquote)).column_le (Nat.le_succ column)
      · have hfed := h.feed hbase ⟨text, hlast, hc⟩
        have hread := ih hfed hrest
        rwa [List.append_assoc] at hread

end Tracks

theorem feed_break_of_inQuote {scanner : Scanner} (hquote : scanner.inQuote) (column : Nat) :
    scanner.feed '\n' column = ({ scanner with escaped := false }.accumulate '\n' column, []) := by
  obtain ⟨line, openings, escaped, word⟩ := scanner
  rw [feed]
  split
  · rfl
  · next hescaped =>
      cases openings with
      | nil => cases hquote
      | cons opening outer =>
          have henclosure : opening.enclosure = .quote := by simpa [inQuote] using hquote
          obtain rfl : escaped = false := by simpa using hescaped
          simp [henclosure, Enclosure.closing]

theorem feed_break_of_not_inQuote {scanner : Scanner} (hquote : scanner.inQuote = false)
    (hescaped : scanner.escaped = false) (column : Nat) :
    scanner.feed '\n' column = ({ scanner with word := none }, scanner.pending) := by
  have hplain :
      scanner.feedPlain '\n' column = ({ scanner with word := none }, scanner.pending) := by
    rw [feedPlain, if_pos (by decide), flush_eq]
  obtain ⟨line, openings, escaped, word⟩ := scanner
  rw [feed, if_neg (by simpa using hescaped)]
  cases openings with
  | nil => simpa using hplain
  | cons opening outer =>
      have henclosure : opening.enclosure = .bracket := by
        cases henclosure : opening.enclosure with
        | bracket => rfl
        | quote => simp [inQuote, henclosure] at hquote
      simpa [henclosure, Enclosure.closing] using hplain

/-- The words at the end of a line: a word goes on after it only where something is open. -/
def Unbroken (scanner : Scanner) : Prop :=
  scanner.openings = [] → scanner.word = none

namespace Tracks

variable {base column : Nat} {lines : List Bytes} {scanner : Scanner} {tokens : List Token}

theorem feedBreak (h : Tracks base lines column scanner tokens) (hbase : base < lines.length)
    (hescaped : scanner.inQuote = false → scanner.escaped = false) :
    Tracks base lines (column + 1) (scanner.feed '\n' (column + 1)).1
        (tokens ++ (scanner.feed '\n' (column + 1)).2) ∧
      (scanner.feed '\n' (column + 1)).1.Unbroken := by
  cases hquote : scanner.inQuote with
  | true =>
      rw [feed_break_of_inQuote hquote, List.append_nil]
      have hword := h.quoted hquote
      refine ⟨(h.withEscaped false).accumulate hbase fun hnone => absurd hnone hword, ?_⟩
      intro hopenings
      cases hopen : scanner.openings with
      | nil => simp [inQuote, hopen] at hquote
      | cons opening outer =>
          obtain ⟨word, hsome⟩ := Option.ne_none_iff_exists'.mp hword
          simp [Scanner.accumulate, hsome, hopen] at hopenings
  | false =>
      rw [feed_break_of_not_inQuote hquote (hescaped hquote)]
      have hflushed := h.flush h.openers (h.bracket_of_inQuote hquote)
      exact ⟨hflushed.column_le (Nat.le_succ column), fun _ => rfl⟩

theorem nextLine (h : Tracks base lines column scanner tokens) (text : Bytes) :
    Tracks base (lines ++ [text]) 0 { scanner with line := scanner.line + 1 } tokens where
  line := by simp [h.line]
  placed := h.placed.nextLine text
  openers opening hmem := (h.openers opening hmem).append [text]
  outer := h.outer
  quoted := h.quoted

theorem scanLine (h : Tracks base lines column scanner tokens) (hbase : base ≤ lines.length)
    (text : Bytes) :
    (∃ column, Tracks base (lines ++ [text]) column (scanner.scanLine text).1
      (tokens ++ (scanner.scanLine text).2)) ∧ (scanner.scanLine text).1.Unbroken := by
  have hbase : base < (lines ++ [text]).length := by
    rw [List.length_append]
    exact Nat.lt_succ_of_le hbase
  have hread := (h.nextLine text).feedLine hbase List.getLast?_concat List.drop_zero
  rw [Scanner.scanLine]
  generalize Scanner.feedLine _ 0 (Text.decode text) = fed at hread
  obtain ⟨read, more, last⟩ := fed
  dsimp only at hread ⊢
  have hready : Tracks base (lines ++ [text]) last
      (if read.inQuote then read else { read with escaped := false }) (tokens ++ more) := by
    split
    · exact hread
    · exact hread.withEscaped false
  have hescaped : (if read.inQuote then read else { read with escaped := false }).inQuote = false →
      (if read.inQuote then read else { read with escaped := false }).escaped = false := by
    split
    · next hquote => simp [hquote]
    · exact fun _ => rfl
  obtain ⟨hbroken, hunbroken⟩ := hready.feedBreak hbase hescaped
  rw [List.append_assoc] at hbroken
  exact ⟨⟨last + 1, hbroken⟩, hunbroken⟩

end Tracks

/-- A scanner that has read some lines and is about to read the next one into a new statement. -/
structure Rests (lines : List Bytes) (scanner : Scanner) : Prop where
  tracks : ∃ column, Tracks 0 lines column scanner []
  unbroken : scanner.Unbroken

theorem rests_new : Rests [] {} := by
  refine ⟨⟨0, rfl, .nil 0 [] 0, ?_, ?_, ?_⟩, fun _ => rfl⟩
  · exact fun opening hmem => absurd hmem List.not_mem_nil
  · exact fun opening hmem => absurd hmem List.not_mem_nil
  · intro hquote
    cases hquote

theorem Rests.standsIn_innermost? {lines : List Bytes} {scanner : Scanner} {token : Token}
    (h : Rests lines scanner) (hopener : scanner.innermost? = some token) :
    token.StandsIn lines := by
  obtain ⟨column, htracks⟩ := h.tracks
  obtain ⟨opening, hopening, rfl⟩ := Option.map_eq_some_iff.mp hopener
  exact htracks.openers opening (List.mem_of_head? hopening)

end Scanner

/-- The statement consists of some of the lines, and its tokens begin where they say and are in
order. -/
structure Statement.Faithful (lines : List Bytes) (statement : Statement) : Prop where
  source : ∃ earlier later, lines = earlier ++ statement.source ++ later ∧
    (statement.source ≠ [] → statement.number = earlier.length + 1)
  stands : ∀ token ∈ statement.tokens, token.StandsIn lines
  ordered : statement.tokens.Pairwise Token.Before

namespace Statement

variable {lines : List Bytes} {statement : Statement}

theorem Faithful.append (h : statement.Faithful lines) (more : List Bytes) :
    statement.Faithful (lines ++ more) := by
  obtain ⟨earlier, later, hlines, hnumber⟩ := h.source
  refine ⟨⟨earlier, later ++ more, ?_, hnumber⟩, ?_, h.ordered⟩
  · rw [hlines, List.append_assoc _ later]
  · intro token hmem
    exact (h.stands token hmem).append more

theorem Faithful.getElem?_source (h : statement.Faithful lines) {i : Nat} {text : Bytes}
    (htext : statement.source[i]? = some text) :
    ∃ position : Nat, statement.number + i = position + 1 ∧ lines[position]? = some text := by
  obtain ⟨earlier, later, hlines, hnumber⟩ := h.source
  have hlt := (List.getElem?_eq_some_iff.mp htext).1
  have hfirst := hnumber (List.ne_nil_of_length_pos (by omega))
  refine ⟨earlier.length + i, by omega, ?_⟩
  rw [hlines, List.append_assoc, List.getElem?_append_right (by omega), Nat.add_sub_cancel_left,
    List.getElem?_append_left hlt, htext]

theorem Faithful.startsIn (h : statement.Faithful lines) {token : Token}
    (hstands : token.StandsIn lines) {i : Nat} {text : Bytes}
    (htext : statement.source[i]? = some text) (hline : token.line = statement.number + i) :
    token.StartsIn text := by
  obtain ⟨position, hposition, hfound⟩ := h.getElem?_source htext
  obtain ⟨-, found, hstands, hstarts⟩ := hstands
  rw [show (token.line - 1).toNat = position by omega, hfound] at hstands
  cases hstands
  exact hstarts

end Statement

/-- The text is the line without the line feeds and carriage returns at its end. -/
def IsTrimmed (raw text : Bytes) : Prop :=
  ∃ ending, raw = text ++ ending ∧
    (∀ b ∈ ending, b = Text.lineFeed ∨ b = Text.carriageReturn) ∧
    ∀ b, text.getLast? = some b → b ≠ Text.lineFeed ∧ b ≠ Text.carriageReturn

theorem Scanner.isTrimmed_trimBreak (raw : Bytes) : IsTrimmed raw (trimBreak raw) := by
  let isBreak : UInt8 → Bool := fun b => b = Text.lineFeed || b = Text.carriageReturn
  refine ⟨(raw.reverse.takeWhile isBreak).reverse, ?_, ?_, ?_⟩
  · rw [trimBreak, Text.trimEndWhile, ← List.reverse_append, List.takeWhile_append_dropWhile,
      List.reverse_reverse]
  · intro b hmem
    have hbreak := List.all_eq_true.mp List.all_takeWhile b (List.mem_reverse.mp hmem)
    simpa [isBreak] using hbreak
  · intro b hlast
    rw [trimBreak, Text.trimEndWhile, List.getLast?_reverse] at hlast
    have hkept := List.head?_dropWhile_not isBreak raw.reverse
    rw [hlast] at hkept
    simpa [isBreak] using hkept

def Source.lines (source : Source) : List Bytes :=
  source.filterMap fun answer =>
    match answer with
    | .line raw => some raw
    | _ => none

theorem Source.lines_append (first second : Source) :
    Source.lines (first ++ second) = first.lines ++ second.lines :=
  List.filterMap_append

namespace Scanner

/-- The statement that a scan yields, or the part of it that has been read when the scan fails. -/
def Result.part? : Result → Option Statement
  | statement found => some found
  | ended => none
  | failed part _ => some part

/-- What a scan does after some lines have been read: it takes answers from the source, and the
lines among them follow the lines read before. `fresh` is the condition under which all tokens belong
to the lines of the statement. -/
structure Continues (fresh : Prop) (lines : List Bytes) (source : Source) (scan : Scan)
    (more : List Bytes) : Prop where
  consumed : ∃ consumed, source = consumed ++ scan.source ∧ more = consumed.lines.map trimBreak
  rests : Rests (lines ++ more) scan.scanner
  faithful : ∀ part, scan.result.part? = some part → part.Faithful (lines ++ more)
  inside : fresh → ∀ part, scan.result.part? = some part → ∀ token ∈ part.tokens,
    ∃ i < part.source.length, token.line = part.number + i
  closed : (∀ part failure, scan.result ≠ .failed part failure) → scan.scanner.openings = []
  blames : ∀ part failure, scan.result = .failed part failure →
    failure.Blames scan.scanner.innermost?.toList

/-- A scanner in the middle of a statement, of which the lines after the first `earlier` have been
read. -/
structure Reads (base : Nat) (earlier lines : List Bytes) (scanner : Scanner)
    (begun : Statement) : Prop where
  tracks : ∃ column, Tracks base lines column scanner begun.tokens
  unbroken : scanner.Unbroken
  base_le : base ≤ earlier.length
  source : lines = earlier ++ begun.source
  number : begun.source ≠ [] → begun.number = earlier.length + 1

namespace Reads

variable {base : Nat} {earlier lines : List Bytes} {scanner : Scanner} {begun : Statement}

theorem readLine (h : Reads base earlier lines scanner begun) (raw : Bytes) :
    Reads base earlier (lines ++ [trimBreak raw]) (scanner.readLine begun raw).1
      (scanner.readLine begun raw).2 := by
  obtain ⟨column, htracks⟩ := h.tracks
  have hbase : base ≤ lines.length := by
    rw [h.source, List.length_append]
    exact Nat.le_add_right_of_le h.base_le
  obtain ⟨⟨last, hread⟩, hunbroken⟩ := htracks.scanLine hbase (trimBreak raw)
  refine ⟨⟨last, hread⟩, hunbroken, h.base_le, ?_, ?_⟩
  · rw [h.source, List.append_assoc]
    rfl
  · intro _
    rw [Scanner.readLine]
    dsimp only
    split
    · next hempty =>
        rw [hread.line, h.source, hempty]
        simp
    · next hbegun => exact h.number hbegun

theorem rests (h : Reads base earlier lines scanner begun) : Rests lines scanner := by
  obtain ⟨column, htracks⟩ := h.tracks
  refine ⟨⟨column, htracks.line, ?_, htracks.openers, htracks.outer, htracks.quoted⟩, h.unbroken⟩
  exact htracks.placed.base_zero.sublist (List.sublist_append_right _ _)

theorem faithful (h : Reads base earlier lines scanner begun) : begun.Faithful lines := by
  obtain ⟨column, htracks⟩ := h.tracks
  have hplaced := htracks.placed.sublist (List.sublist_append_left begun.tokens _)
  exact ⟨⟨earlier, [], by rw [h.source, List.append_nil], h.number⟩, hplaced.stands,
    hplaced.ordered⟩

theorem inside (h : Reads base earlier lines scanner begun) (hfresh : base = earlier.length)
    {token : Token} (hmem : token ∈ begun.tokens) :
    ∃ i < begun.source.length, token.line = begun.number + i := by
  obtain ⟨column, htracks⟩ := h.tracks
  have hplaced := htracks.placed.sublist (List.sublist_append_left begun.tokens _)
  have hlower := hplaced.base_lt token hmem
  have hupper := (hplaced.stands token hmem).line_le
  rw [h.source, List.length_append] at hupper
  have hnumber := h.number (List.ne_nil_of_length_pos (by omega))
  exact ⟨(token.line - begun.number).toNat, by omega, by omega⟩

theorem restart (h : Reads base earlier lines scanner begun) (hopenings : scanner.openings = []) :
    Reads lines.length lines lines scanner {} := by
  obtain ⟨column, htracks⟩ := h.tracks
  refine ⟨⟨column, htracks.line, ?_, htracks.openers, htracks.outer, htracks.quoted⟩, h.unbroken,
    Nat.le_refl _, (List.append_nil _).symm, fun hsource => absurd rfl hsource⟩
  rw [pending, h.unbroken hopenings]
  exact .nil _ _ _

end Reads

theorem reads_of_rests {lines : List Bytes} {scanner : Scanner} (h : Rests lines scanner) :
    ∃ base, Reads base lines lines scanner {} ∧ (scanner.depth = 0 → base = lines.length) := by
  obtain ⟨column, htracks⟩ := h.tracks
  have hread : Reads 0 lines lines scanner {} :=
    ⟨⟨column, htracks⟩, h.unbroken, Nat.zero_le _, (List.append_nil _).symm,
      fun hsource => absurd rfl hsource⟩
  by_cases hdepth : scanner.depth = 0
  · exact ⟨lines.length, hread.restart (List.length_eq_zero_iff.mp hdepth), fun _ => rfl⟩
  · exact ⟨0, hread, fun hzero => absurd hzero hdepth⟩

namespace Continues

variable {base : Nat} {fresh : Prop} {earlier lines more : List Bytes} {scanner : Scanner}
  {begun : Statement} {source : Source} {scan : Scan}

theorem of_reads (consumed : Source) (hsource : source = consumed ++ scan.source)
    (h : Reads base earlier (lines ++ consumed.lines.map trimBreak) scan.scanner begun)
    (hpart : ∀ part, scan.result.part? = some part → part = begun)
    (hclosed : (∀ part failure, scan.result ≠ .failed part failure) → scan.scanner.openings = [])
    (hblames : ∀ part failure, scan.result = .failed part failure →
      failure.Blames scan.scanner.innermost?.toList) :
    Continues (base = earlier.length) lines source scan (consumed.lines.map trimBreak) where
  consumed := ⟨consumed, hsource, rfl⟩
  rests := h.rests
  faithful part hresult := by
    rw [hpart part hresult]
    exact h.faithful
  inside hfresh part hresult token hmem := by
    rw [hpart part hresult] at hmem ⊢
    exact h.inside hfresh hmem
  closed := hclosed
  blames := hblames

theorem cons {raw : Bytes} (h : Continues fresh (lines ++ [trimBreak raw]) source scan more)
    {condition : Prop} (hfresh : condition → fresh) (depths : List Nat) :
    Continues condition lines (.line raw :: source) { scan with depths }
      (trimBreak raw :: more) where
  consumed := by
    obtain ⟨consumed, hsource, hmore⟩ := h.consumed
    exact ⟨.line raw :: consumed, congrArg _ hsource, congrArg _ hmore⟩
  rests := by
    rw [List.append_cons]
    exact h.rests
  faithful part hresult := by
    rw [List.append_cons]
    exact h.faithful part hresult
  inside hcondition := h.inside (hfresh hcondition)
  closed := h.closed
  blames := h.blames

end Continues

theorem part?_atEnd {scanner : Scanner} {begun part : Statement}
    (h : (scanner.atEnd begun).part? = some part) : part = begun := by
  rw [atEnd] at h
  split at h
  · cases h
  · exact (Option.some.inj h).symm

theorem openings_of_atEnd {scanner : Scanner} {begun : Statement}
    (h : ∀ part failure, scanner.atEnd begun ≠ .failed part failure) : scanner.openings = [] := by
  rw [atEnd] at h
  split at h
  · next hopenings => exact hopenings
  · exact absurd rfl (h _ _)

/-- Lines read one after another into a statement, until it is complete, the source ends or a read
fails. -/
theorem Reads.continues {base : Nat} {earlier lines : List Bytes} {scanner : Scanner}
    {begun : Statement} (h : Reads base earlier lines scanner begun) (source : Source) :
    ∃ more, Continues (base = earlier.length) lines source
      (scanner.continueStatement begun source) more := by
  induction source generalizing base earlier lines scanner begun with
  | nil =>
      refine ⟨_, .of_reads [] rfl (lines.append_nil.symm ▸ h) ?_ ?_ ?_⟩
      · exact fun part => part?_atEnd
      · exact openings_of_atEnd
      · exact fun part failure => blames_atEnd
  | cons answer source ih =>
      cases answer with
      | ended =>
          refine ⟨_, .of_reads [.ended] rfl (lines.append_nil.symm ▸ h) ?_ ?_ ?_⟩
          · exact fun part => part?_atEnd
          · exact openings_of_atEnd
          · exact fun part failure => blames_atEnd
      | failed reason =>
          refine ⟨_, .of_reads [.failed reason] rfl (lines.append_nil.symm ▸ h) ?_ ?_ ?_⟩
          · rintro part hpart
            exact (Option.some.inj hpart).symm
          · intro hresult
            exact absurd rfl (hresult _ _)
          · rintro part failure hresult
            cases hresult
            exact .of_token?_eq_none rfl rfl
      | line raw =>
          have hread := h.readLine raw
          rw [continueStatement]
          generalize scanner.readLine begun raw = read at hread
          obtain ⟨after, statement⟩ := read
          dsimp only at hread ⊢
          split
          · obtain ⟨more, hmore⟩ := ih hread
            exact ⟨_, hmore.cons id _⟩
          · next hopenings =>
              have hopenings : after.openings = [] := by simpa using hopenings
              split
              · obtain ⟨more, hmore⟩ := ih (hread.restart hopenings)
                exact ⟨_, hmore.cons (fun _ => rfl) _⟩
              · refine ⟨_, .of_reads [.line raw] rfl hread ?_ ?_ ?_⟩
                · rintro part hpart
                  exact (Option.some.inj hpart).symm
                · exact fun _ => hopenings
                · rintro part failure hresult
                  cases hresult

/-- What a scan does, whatever the scanner has been through. All tokens belong to the lines of the
statement if nothing is open when the scan begins. -/
theorem Rests.next {lines : List Bytes} {scanner : Scanner} (h : Rests lines scanner)
    (source : Source) :
    ∃ more, Continues (scanner.depth = 0) lines source (scanner.next source) more := by
  obtain ⟨base, hreads, hfresh⟩ := reads_of_rests h
  obtain ⟨more, hmore⟩ := hreads.continues source
  exact ⟨more, { hmore with inside := fun hdepth => hmore.inside (hfresh hdepth) }⟩

/-- A scanner after any number of scans of a source, and what is left of the source. -/
inductive After (source : Source) : Scanner → Source → Prop
  | start : After source {} source
  | next {scanner : Scanner} {rest : Source} (h : After source scanner rest) :
      After source (scanner.next rest).scanner (scanner.next rest).source

theorem After.rests {source rest : Source} {scanner : Scanner} (h : After source scanner rest) :
    ∃ consumed, source = consumed ++ rest ∧ Rests (consumed.lines.map trimBreak) scanner := by
  induction h with
  | start => exact ⟨[], rfl, rests_new⟩
  | @next scanner rest _ ih =>
      obtain ⟨consumed, hsource, hrests⟩ := ih
      obtain ⟨more, hmore⟩ := hrests.next rest
      obtain ⟨taken, hrest, hlines⟩ := hmore.consumed
      refine ⟨consumed ++ taken, ?_, ?_⟩
      · rw [hsource, List.append_assoc, ← hrest]
      · rw [Source.lines_append, List.map_append, ← hlines]
        exact hmore.rests

end Scanner

end LineScript
