import LineScript.Proofs.Feeding

namespace LineScript

/-- The token is the word that it is spelt with. -/
def Token.IsWord (token : Token) : Prop :=
  ofWord? token.lexeme token.line token.column = some token

instance (token : Token) : Decidable token.IsWord :=
  inferInstanceAs (Decidable (_ = _))

theorem Token.isWord_ofWord {word : Bytes} (h : word ≠ []) (line column : Int) :
    (ofWord word line column).IsWord :=
  if_neg h

theorem Token.IsWord.eq_ofWord {token : Token} (h : token.IsWord) :
    token = ofWord token.lexeme token.line token.column := by
  rw [IsWord, ofWord?] at h
  split at h
  · cases h
  · exact (Option.some.inj h).symm

theorem Token.IsWord.lexeme_ne_nil {token : Token} (h : token.IsWord) : token.lexeme ≠ [] := by
  intro hempty
  rw [IsWord, ofWord?, if_pos hempty] at h
  cases h

theorem Text.encode_ne_nil {cs : List Char} (h : cs ≠ []) : encode cs ≠ [] := by
  intro hempty
  rw [← decode_encode cs, hempty] at h
  exact h rfl

namespace Scanner

/-- A word that has begun is not empty, and the tokens so far are words. -/
structure Spells (scanner : Scanner) (tokens : List Token) : Prop where
  begun : ∀ word, scanner.word = some word → word.text.toList ≠ []
  isWord : ∀ token ∈ tokens, token.IsWord

theorem isWord_mark (scanner : Scanner) (c : Char) (column : Nat) :
    (scanner.mark c column).IsWord :=
  Token.isWord_ofWord (Text.encode_ne_nil (List.cons_ne_nil c [])) _ _

namespace Spells

variable {scanner : Scanner} {tokens : List Token}

theorem new : Spells {} [] := by
  constructor
  · rintro word ⟨⟩
  · simp

theorem withState (h : Spells scanner tokens) (line : Nat) (openings : List Opening)
    (escaped : Bool) : Spells { scanner with line, openings, escaped } tokens :=
  ⟨h.begun, h.isWord⟩

theorem restart (h : Spells scanner tokens) : Spells scanner [] :=
  ⟨h.begun, by simp⟩

theorem append_mark (h : Spells scanner tokens) {token : Token} (htoken : token.IsWord) :
    Spells scanner (tokens ++ [token]) := by
  refine ⟨h.begun, ?_⟩
  simp only [List.mem_append, List.mem_singleton]
  rintro other (hmem | rfl)
  · exact h.isWord other hmem
  · exact htoken

theorem accumulate (h : Spells scanner tokens) (c : Char) (column : Nat) :
    Spells (scanner.accumulate c column) tokens := by
  rw [Scanner.accumulate]
  split
  · refine ⟨?_, h.isWord⟩
    rintro word ⟨⟩
    simp
  · refine ⟨?_, h.isWord⟩
    rintro word ⟨⟩
    simp

theorem flush (h : Spells scanner tokens) :
    Spells { scanner with word := none } (tokens ++ scanner.pending) := by
  constructor
  · rintro word ⟨⟩
  · cases hword : scanner.word with
    | none => simpa [pending, hword] using h.isWord
    | some word =>
        have htoken : word.token.IsWord := by
          apply Token.isWord_ofWord
          rw [Text.utf8_eq_encode]
          exact Text.encode_ne_nil (h.begun word hword)
        simp only [pending, hword, Option.toList_some, List.map_singleton, List.mem_append,
          List.mem_singleton]
        rintro token (hmem | rfl)
        · exact h.isWord token hmem
        · exact htoken

theorem feedPlain (h : Spells scanner tokens) (c : Char) (column : Nat) :
    Spells (scanner.feedPlain c column).1 (tokens ++ (scanner.feedPlain c column).2) := by
  rw [Scanner.feedPlain]
  simp only [flush_eq]
  split
  · exact h.flush
  · split
    · rw [← List.append_assoc]
      exact (h.flush.append_mark (scanner.isWord_mark c column)).withState _ _ _
    · split
      · rw [← List.append_assoc]
        exact h.flush.append_mark (scanner.isWord_mark c column)
      · split
        · exact (h.flush.accumulate c column).withState _ _ _
        · rw [List.append_nil]
          exact h.accumulate c column

theorem close (h : Spells scanner tokens) (opening : Opening) (outer : List Opening)
    (column : Nat) :
    Spells (scanner.close opening outer column).1
      (tokens ++ (scanner.close opening outer column).2) := by
  rw [Scanner.close]
  simp only [flush_eq]
  split
  · rw [← List.append_assoc]
    exact (h.flush.append_mark (scanner.isWord_mark ')' column)).withState _ _ _
  · exact (h.accumulate '"' column).flush.withState _ _ _

theorem feed (h : Spells scanner tokens) (c : Char) (column : Nat) :
    Spells (scanner.feed c column).1 (tokens ++ (scanner.feed c column).2) := by
  have hescaped : Spells { scanner with escaped := true } tokens := h.withState _ _ _
  rw [Scanner.feed]
  split
  · rw [List.append_nil]
    exact (h.withState _ _ _).accumulate c column
  · split
    · next opening outer _ =>
        split
        · exact h.close opening outer column
        · split
          · simpa using hescaped
          · split
            · simpa using h.accumulate c column
            · exact h.feedPlain c column
    · split
      · simpa using hescaped
      · exact h.feedPlain c column

theorem feedLine (h : Spells scanner tokens) (column : Nat) (cs : List Char) :
    Spells (scanner.feedLine column cs).1 (tokens ++ (scanner.feedLine column cs).2.1) := by
  induction cs generalizing scanner tokens column with
  | nil => simpa [Scanner.feedLine] using h
  | cons c cs ih =>
      rw [Scanner.feedLine]
      split
      · simp only [flush_eq]
        exact h.flush
      · have hread := ih (h.feed c (column + 1)) (column + 1)
        rwa [List.append_assoc] at hread

theorem scanLine (h : Spells scanner tokens) (text : Bytes) :
    Spells (scanner.scanLine text).1 (tokens ++ (scanner.scanLine text).2) := by
  have hread := (h.withState (scanner.line + 1) scanner.openings scanner.escaped).feedLine 0
    (Text.decode text)
  rw [Scanner.scanLine]
  generalize Scanner.feedLine _ 0 (Text.decode text) = read at hread
  obtain ⟨read, more, column⟩ := read
  dsimp only at hread ⊢
  rw [← List.append_assoc]
  apply feed
  split
  · exact hread
  · exact hread.withState _ _ _

theorem continueStatement (begun : Statement) (h : Spells scanner begun.tokens)
    (source : Source) :
    Spells (scanner.continueStatement begun source).scanner [] ∧
      ∀ statement, (scanner.continueStatement begun source).result = .statement statement →
        ∀ token ∈ statement.tokens, token.IsWord := by
  induction source generalizing scanner begun with
  | nil =>
      refine ⟨h.restart, ?_⟩
      rw [Scanner.continueStatement, atEnd]
      split <;> simp
  | cons answer source ih =>
      cases answer with
      | ended =>
          refine ⟨h.restart, ?_⟩
          rw [Scanner.continueStatement, atEnd]
          split <;> simp
      | failed reason => exact ⟨h.restart, by simp [Scanner.continueStatement]⟩
      | line raw =>
          have hread : Spells (scanner.readLine begun raw).1
              (scanner.readLine begun raw).2.tokens := h.scanLine (trimBreak raw)
          rw [Scanner.continueStatement]
          generalize scanner.readLine begun raw = read at hread
          obtain ⟨after, statement⟩ := read
          dsimp only at hread ⊢
          split
          · exact ih _ hread
          · split
            · exact ih _ hread.restart
            · refine ⟨hread.restart, ?_⟩
              rintro found ⟨⟩
              exact hread.isWord

end Spells

end Scanner

end LineScript
