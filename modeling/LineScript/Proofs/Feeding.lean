import LineScript.Proofs.TokenPlaces

namespace LineScript.Scanner

/-- Whether a character outside quotes belongs to a word, when so many brackets are open. -/
def isWordChar (depth : Nat) (c : Char) : Bool :=
  !Text.isBlank c && !(['(', ':', '"', '#', '\\'].contains c) && (c != ')' || depth == 0)

variable {scanner : Scanner} {c : Char}

theorem enclosure_of_inQuote {opening : Opening} {outer : List Opening}
    (hopenings : scanner.openings = opening :: outer) (hquote : scanner.inQuote = true) :
    opening.enclosure = .quote := by
  simpa [inQuote, hopenings] using hquote

theorem enclosure_of_not_inQuote {opening : Opening} {outer : List Opening}
    (hopenings : scanner.openings = opening :: outer) (hquote : scanner.inQuote = false) :
    opening.enclosure = .bracket := by
  cases henclosure : opening.enclosure with
  | bracket => rfl
  | quote => simp [inQuote, hopenings, henclosure] at hquote

theorem exists_openings_of_inQuote (hquote : scanner.inQuote = true) :
    ∃ opening outer, scanner.openings = opening :: outer ∧ opening.enclosure = .quote := by
  cases hopenings : scanner.openings with
  | nil => simp [inQuote, hopenings] at hquote
  | cons opening outer => exact ⟨opening, outer, rfl, enclosure_of_inQuote hopenings hquote⟩

theorem inQuote_of_openings {opening : Opening} {outer : List Opening}
    (hopenings : scanner.openings = opening :: outer) (hquote : opening.enclosure = .quote) :
    scanner.inQuote = true := by
  simp [inQuote, hopenings, hquote]

theorem feed_of_escaped (hescaped : scanner.escaped = true) (c : Char) (column : Nat) :
    scanner.feed c column = ({ scanner with escaped := false }.accumulate c column, []) := by
  rw [feed, if_pos hescaped]

theorem feed_backslash (hescaped : scanner.escaped = false) (column : Nat) :
    scanner.feed '\\' column = ({ scanner with escaped := true }, []) := by
  rw [feed, if_neg (by simp [hescaped])]
  split
  · next opening outer _ =>
      have hclosing : '\\' ≠ opening.enclosure.closing := by
        cases opening.enclosure <;> decide
      rw [if_neg hclosing, if_pos rfl]
  · rw [if_pos rfl]

theorem feed_of_inQuote (hescaped : scanner.escaped = false) (hquote : scanner.inQuote = true)
    (hmark : c ≠ '"') (hbackslash : c ≠ '\\') (column : Nat) :
    scanner.feed c column = (scanner.accumulate c column, []) := by
  obtain ⟨opening, outer, hopenings, henclosure⟩ := exists_openings_of_inQuote hquote
  rw [feed, if_neg (by simp [hescaped]), hopenings]
  simp only [henclosure, Enclosure.closing, if_neg hmark, if_neg hbackslash, if_true]

theorem feed_closing_quote {opening : Opening} {outer : List Opening}
    (hescaped : scanner.escaped = false) (hopenings : scanner.openings = opening :: outer)
    (hquote : opening.enclosure = .quote) (column : Nat) :
    scanner.feed '"' column =
      ({ scanner.accumulate '"' column with openings := outer, word := none },
        (scanner.accumulate '"' column).pending) := by
  rw [feed, if_neg (by simp [hescaped]), hopenings]
  simp only [hquote, Enclosure.closing, if_true, close, flush_eq]

/-- Outside quotes a character that is neither a backslash nor closes a bracket is plain. -/
theorem feed_eq_feedPlain (hescaped : scanner.escaped = false) (hquote : scanner.inQuote = false)
    (hbackslash : c ≠ '\\') (hclosing : c = ')' → scanner.openings = []) (column : Nat) :
    scanner.feed c column = scanner.feedPlain c column := by
  rw [feed, if_neg (by simp [hescaped])]
  split
  · next opening outer hopenings =>
      have henclosure := enclosure_of_not_inQuote hopenings hquote
      have hne : c ≠ ')' := by
        intro hc
        rw [hclosing hc] at hopenings
        cases hopenings
      simp only [henclosure, Enclosure.closing, if_neg hne, if_neg hbackslash, reduceCtorEq,
        if_false]
  · rw [if_neg hbackslash]

theorem feed_blank (hescaped : scanner.escaped = false) (hquote : scanner.inQuote = false)
    (hblank : Text.isBlank c = true) (column : Nat) :
    scanner.feed c column = ({ scanner with word := none }, scanner.pending) := by
  have hbackslash : c ≠ '\\' := by
    rintro rfl
    exact absurd hblank (by decide)
  have hclosing : c ≠ ')' := by
    rintro rfl
    exact absurd hblank (by decide)
  rw [feed_eq_feedPlain hescaped hquote hbackslash fun hc => absurd hc hclosing, feedPlain,
    if_pos hblank, flush_eq]

theorem feed_open (hescaped : scanner.escaped = false) (hquote : scanner.inQuote = false)
    (column : Nat) :
    scanner.feed '(' column =
      ({ scanner with
          openings := ⟨.bracket, scanner.mark '(' column⟩ :: scanner.openings, word := none },
        scanner.pending ++ [scanner.mark '(' column]) := by
  rw [feed_eq_feedPlain hescaped hquote (by decide) (by simp), feedPlain, if_neg (by decide),
    if_pos rfl, flush_eq]

theorem feed_colon (hescaped : scanner.escaped = false) (hquote : scanner.inQuote = false)
    (column : Nat) :
    scanner.feed ':' column =
      ({ scanner with word := none }, scanner.pending ++ [scanner.mark ':' column]) := by
  rw [feed_eq_feedPlain hescaped hquote (by decide) (by simp), feedPlain, if_neg (by decide),
    if_neg (by decide), if_pos rfl, flush_eq]

theorem feed_opening_quote (hescaped : scanner.escaped = false) (hquote : scanner.inQuote = false)
    (column : Nat) :
    scanner.feed '"' column =
      ({ scanner with
          openings := ⟨.quote, scanner.quoteMark column⟩ :: scanner.openings
          word := some ⟨String.singleton '"', scanner.line, column⟩ },
        scanner.pending) := by
  rw [feed_eq_feedPlain hescaped hquote (by decide) (by simp), feedPlain, if_neg (by decide),
    if_neg (by decide), if_neg (by decide), if_pos rfl, flush_eq]
  rfl

theorem feed_closing_bracket {opening : Opening} {outer : List Opening}
    (hescaped : scanner.escaped = false) (hopenings : scanner.openings = opening :: outer)
    (hbracket : opening.enclosure = .bracket) (column : Nat) :
    scanner.feed ')' column =
      ({ scanner with openings := outer, word := none },
        scanner.pending ++ [scanner.mark ')' column]) := by
  rw [feed, if_neg (by simp [hescaped]), hopenings]
  simp only [hbracket, Enclosure.closing, if_true, close, flush_eq]

theorem feed_word (hescaped : scanner.escaped = false) (hquote : scanner.inQuote = false)
    (hword : isWordChar scanner.depth c = true) (column : Nat) :
    scanner.feed c column = (scanner.accumulate c column, []) := by
  simp only [isWordChar, List.contains_cons, List.contains_nil, Bool.and_eq_true,
    Bool.not_eq_eq_eq_not, Bool.not_true, Bool.or_eq_true, bne_iff_ne, beq_iff_eq, Bool.or_false,
    Bool.or_eq_false_iff, beq_eq_false_iff_ne] at hword
  obtain ⟨⟨hblank, hopen, hcolon, hmark, -, hbackslash⟩, hclosing⟩ := hword
  have hstray : c = ')' → scanner.openings = [] := by
    rintro rfl
    exact List.length_eq_zero_iff.mp (hclosing.resolve_left fun h => h rfl)
  rw [feed_eq_feedPlain hescaped hquote hbackslash hstray, feedPlain, if_neg (by simp [hblank]),
    if_neg hopen, if_neg hcolon, if_neg hmark]

/-- A character that is neither escaped nor a backslash nor begins a comment: what it is, and what
feeding it comes to. -/
inductive Feeds (scanner : Scanner) (c : Char) (column : Nat) : Scanner × List Token → Prop
  | quoted (hquote : scanner.inQuote = true) (hmark : c ≠ '"') :
      Feeds scanner c column (scanner.accumulate c column, [])
  | closesQuote {opening : Opening} {outer : List Opening}
      (hopenings : scanner.openings = opening :: outer) (hquote : opening.enclosure = .quote)
      (hc : c = '"') :
      Feeds scanner c column
        ({ scanner.accumulate '"' column with openings := outer, word := none },
          (scanner.accumulate '"' column).pending)
  | blank (hquote : scanner.inQuote = false) (hblank : Text.isBlank c = true) :
      Feeds scanner c column ({ scanner with word := none }, scanner.pending)
  | opens (hquote : scanner.inQuote = false) (hc : c = '(') :
      Feeds scanner c column
        ({ scanner with
            openings := ⟨.bracket, scanner.mark '(' column⟩ :: scanner.openings, word := none },
          scanner.pending ++ [scanner.mark '(' column])
  | colon (hquote : scanner.inQuote = false) (hc : c = ':') :
      Feeds scanner c column
        ({ scanner with word := none }, scanner.pending ++ [scanner.mark ':' column])
  | opensQuote (hquote : scanner.inQuote = false) (hc : c = '"') :
      Feeds scanner c column
        ({ scanner with
            openings := ⟨.quote, scanner.quoteMark column⟩ :: scanner.openings
            word := some ⟨String.singleton '"', scanner.line, column⟩ },
          scanner.pending)
  | closesBracket {opening : Opening} {outer : List Opening}
      (hquote : scanner.inQuote = false) (hopenings : scanner.openings = opening :: outer)
      (hc : c = ')') :
      Feeds scanner c column
        ({ scanner with openings := outer, word := none },
          scanner.pending ++ [scanner.mark ')' column])
  | joins (hquote : scanner.inQuote = false) (hword : isWordChar scanner.depth c = true) :
      Feeds scanner c column (scanner.accumulate c column, [])

theorem feeds (hescaped : scanner.escaped = false) (hbackslash : c ≠ '\\')
    (hcomment : scanner.beginsComment c = false) (column : Nat) :
    Feeds scanner c column (scanner.feed c column) := by
  cases hquote : scanner.inQuote with
  | true =>
      by_cases hmark : c = '"'
      · obtain ⟨opening, outer, hopenings, henclosure⟩ := exists_openings_of_inQuote hquote
        rw [hmark, feed_closing_quote hescaped hopenings henclosure]
        exact .closesQuote hopenings henclosure rfl
      · rw [feed_of_inQuote hescaped hquote hmark hbackslash]
        exact .quoted hquote hmark
  | false =>
      have hhash : c ≠ '#' := by
        rintro rfl
        simp [beginsComment, hescaped, hquote] at hcomment
      cases hblank : Text.isBlank c with
      | true =>
          rw [feed_blank hescaped hquote hblank]
          exact .blank hquote hblank
      | false =>
          by_cases hopen : c = '('
          · rw [hopen, feed_open hescaped hquote]
            exact .opens hquote rfl
          by_cases hcolon : c = ':'
          · rw [hcolon, feed_colon hescaped hquote]
            exact .colon hquote rfl
          by_cases hmark : c = '"'
          · rw [hmark, feed_opening_quote hescaped hquote]
            exact .opensQuote hquote rfl
          by_cases hclosing : c = ')' ∧ scanner.openings ≠ []
          · obtain ⟨hc, hne⟩ := hclosing
            obtain ⟨opening, outer, hopenings⟩ := List.exists_cons_of_ne_nil hne
            rw [hc, feed_closing_bracket hescaped hopenings
              (enclosure_of_not_inQuote hopenings hquote)]
            exact .closesBracket hquote hopenings rfl
          · have hstray : c = ')' → scanner.depth = 0 := by
              intro hc
              exact List.length_eq_zero_iff.mpr
                (Decidable.byContradiction fun hne => hclosing ⟨hc, hne⟩)
            have hword : isWordChar scanner.depth c = true := by
              by_cases hc : c = ')'
              · simp [isWordChar, hblank, hopen, hcolon, hmark, hhash, hbackslash, hstray hc]
              · simp [isWordChar, hblank, hopen, hcolon, hmark, hhash, hbackslash, hc]
            rw [feed_word hescaped hquote hword]
            exact .joins hquote hword

end LineScript.Scanner
