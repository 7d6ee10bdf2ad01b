import LineScript.Proofs.Feeding
import LineScript.Proofs.Pieces

namespace LineScript

namespace Text

theorem isWellFormed_iff {text : Bytes} : isWellFormed text ↔ ∃ cs, text = encode cs := by
  constructor
  · intro h
    refine ⟨decode text, ?_⟩
    conv => lhs; rw [← flatMap_bytes_pieces text]
    rw [decode, encode, List.flatMap_map, List.flatMap, List.flatMap]
    congr 1
    refine List.map_congr_left fun piece hmem => ?_
    cases piece with
    | char c => rfl
    | stray b => exact absurd (List.all_eq_true.mp h _ hmem) Bool.false_ne_true
  · rintro ⟨cs, rfl⟩
    exact isWellFormed_encode cs

@[simp]
theorem isWellFormed_nil : isWellFormed [] :=
  isWellFormed_encode []

@[simp]
theorem isWellFormed_utf8 (s : String) : isWellFormed (utf8 s) := by
  rw [utf8_eq_encode]
  exact isWellFormed_encode s.toList

@[simp]
theorem isWellFormed_append_left {text : Bytes} (h : isWellFormed text) (more : Bytes) :
    isWellFormed (text ++ more) = isWellFormed more := by
  obtain ⟨cs, rfl⟩ := isWellFormed_iff.mp h
  have hchars : (cs.map Piece.char).all Piece.isChar := by simp [Piece.isChar]
  rw [isWellFormed, pieces_encode_append, List.all_append, hchars]
  rfl

theorem isWellFormed_append {text more : Bytes} (h : isWellFormed text)
    (hmore : isWellFormed more) : isWellFormed (text ++ more) := by
  rwa [isWellFormed_append_left h]

theorem isWellFormed_flatMap {α : Type} {f : α → Bytes} {items : List α}
    (h : ∀ item ∈ items, isWellFormed (f item)) : isWellFormed (items.flatMap f) := by
  induction items with
  | nil => exact isWellFormed_nil
  | cons item items ih =>
      obtain ⟨hitem, hitems⟩ := List.forall_mem_cons.mp h
      exact isWellFormed_append hitem (ih hitems)

theorem isWellFormed_tail {text : Bytes} (h : isWellFormed text) {b : UInt8}
    (hhead : text.head? = some b) (hb : b.toNat < 128) : isWellFormed text.tail := by
  obtain ⟨cs, rfl⟩ := isWellFormed_iff.mp h
  cases cs with
  | nil => exact isWellFormed_nil
  | cons c cs =>
      obtain ⟨first, more, hbytes⟩ := List.exists_cons_of_ne_nil (utf8EncodeChar_ne_nil c)
      rw [encode, List.flatMap_cons, hbytes] at hhead ⊢
      obtain rfl : first = b := Option.some.inj hhead
      have hsingle : first :: more = [first] := by
        rw [← hbytes]
        exact utf8EncodeChar_eq_singleton (by simp [hbytes]) hb
      rw [hsingle]
      exact isWellFormed_encode cs

theorem isWellFormed_dropLast {text : Bytes} (h : isWellFormed text) {b : UInt8}
    (hlast : text.getLast? = some b) (hb : b.toNat < 128) : isWellFormed text.dropLast := by
  obtain ⟨cs, rfl⟩ := isWellFormed_iff.mp h
  rcases List.eq_nil_or_concat cs with rfl | ⟨front, c, rfl⟩
  · exact isWellFormed_nil
  · rw [encode, List.concat_eq_append, List.flatMap_append, List.flatMap_singleton] at hlast ⊢
    have hmem : b ∈ String.utf8EncodeChar c := by
      rw [List.getLast?_append, List.getLast?_eq_some_getLast (utf8EncodeChar_ne_nil c),
        Option.some_or] at hlast
      exact Option.some.inj hlast ▸ List.getLast_mem _
    rw [utf8EncodeChar_eq_singleton hmem hb, List.dropLast_concat]
    exact isWellFormed_encode front

theorem isWellFormed_dropEnd {text : Bytes} (h : isWellFormed text) {b : UInt8}
    (hb : b.toNat < 128) : isWellFormed (dropEnd b text) := by
  rw [dropEnd]
  split
  · next hlast => exact isWellFormed_dropLast h hlast hb
  · exact h

@[simp]
theorem isWellFormed_ofNat (n : Nat) : isWellFormed (Decimal.ofNat n) :=
  isWellFormed_encode _

@[simp]
theorem isWellFormed_ofInt (z : Int) : isWellFormed (Decimal.ofInt z) := by
  cases z with
  | ofNat n => exact isWellFormed_ofNat n
  | negSucc n => exact isWellFormed_append (isWellFormed_utf8 "-") (isWellFormed_ofNat (n + 1))

namespace Quoted

theorem isWellFormed_hex (width n : Nat) : isWellFormed (hex width n) := by
  have hdigit : ∀ digit < 16, isWellFormed [(Nat.digitChar digit).toUInt8] := by decide
  induction width generalizing n with
  | zero => exact isWellFormed_nil
  | succ width ih => exact isWellFormed_append (ih _) (hdigit _ (Nat.mod_lt n (by decide)))

theorem isWellFormed_ofChar (mark c : Char) : isWellFormed (ofChar mark c) := by
  have hcode : ∀ (lead : String) (width : Nat), isWellFormed (utf8 lead ++ hex width c.toNat) :=
    fun lead width => isWellFormed_append (isWellFormed_utf8 lead) (isWellFormed_hex width _)
  rw [ofChar]
  split
  · exact isWellFormed_encode _
  · split
    · exact isWellFormed_encode _
    · split
      · exact isWellFormed_encode _
      · split
        · exact hcode _ _
        · split <;> exact hcode _ _

end Quoted

@[simp]
theorem isWellFormed_quote (text : Bytes) : isWellFormed (quote text) := by
  refine isWellFormed_append (isWellFormed_append (isWellFormed_utf8 _) ?_) (isWellFormed_utf8 _)
  refine isWellFormed_flatMap fun piece _ => ?_
  cases piece with
  | char c => exact Quoted.isWellFormed_ofChar '"' c
  | stray b => exact isWellFormed_append (isWellFormed_utf8 _) (Quoted.isWellFormed_hex 2 _)

end Text

open Text

@[simp]
theorem Kind.isWellFormed_name (kind : Kind) : isWellFormed kind.name := by
  cases kind <;> simp [name]

theorem Token.isWellFormed_classifyWord {word : Bytes} (h : isWellFormed word) :
    isWellFormed (classifyWord word).2 := by
  rw [classifyWord]
  split
  · exact h
  · split
    · next hquoted =>
        obtain ⟨hlength, hfirst, hlast⟩ := hquoted
        have hclosing : word.tail.getLast? = some quoteMark := by
          rwa [List.getLast?_tail, if_neg (by omega)]
        exact isWellFormed_dropLast (isWellFormed_tail h hfirst (by decide)) hclosing (by decide)
    · split
      · next hlabel => exact isWellFormed_tail h hlabel.2 (by decide)
      · split
        · next hreference => exact isWellFormed_tail h hreference.2 (by decide)
        · repeat' split
          all_goals exact h

namespace Scanner

theorem isWellFormed_mark (scanner : Scanner) (c : Char) (column : Nat) :
    isWellFormed (scanner.mark c column).text :=
  Token.isWellFormed_classifyWord (isWellFormed_encode [c])

theorem isWellFormed_pending (scanner : Scanner) :
    ∀ token ∈ scanner.pending, isWellFormed token.text := by
  intro token hmem
  obtain ⟨word, -, rfl⟩ := List.mem_map.mp hmem
  exact Token.isWellFormed_classifyWord (isWellFormed_utf8 word.text)

theorem isWellFormed_feedPlain (scanner : Scanner) (c : Char) (column : Nat) :
    ∀ token ∈ (scanner.feedPlain c column).2, isWellFormed token.text := by
  have hmarked := List.forall_mem_append.mpr
    ⟨scanner.isWellFormed_pending, List.forall_mem_singleton.mpr (scanner.isWellFormed_mark c column)⟩
  rw [feedPlain]
  simp only [flush_eq]
  repeat' split
  · exact scanner.isWellFormed_pending
  · exact hmarked
  · exact hmarked
  · exact scanner.isWellFormed_pending
  · exact List.forall_mem_nil _

theorem isWellFormed_close (scanner : Scanner) (opening : Opening) (outer : List Opening)
    (column : Nat) :
    ∀ token ∈ (scanner.close opening outer column).2, isWellFormed token.text := by
  rw [close]
  simp only [flush_eq]
  split
  · exact List.forall_mem_append.mpr ⟨scanner.isWellFormed_pending,
      List.forall_mem_singleton.mpr (scanner.isWellFormed_mark ')' column)⟩
  · exact isWellFormed_pending _

theorem isWellFormed_feed (scanner : Scanner) (c : Char) (column : Nat) :
    ∀ token ∈ (scanner.feed c column).2, isWellFormed token.text := by
  rw [feed]
  split
  · exact List.forall_mem_nil _
  · split
    · next opening outer _ =>
        repeat' split
        · exact scanner.isWellFormed_close opening outer column
        · exact List.forall_mem_nil _
        · exact List.forall_mem_nil _
        · exact scanner.isWellFormed_feedPlain c column
    · split
      · exact List.forall_mem_nil _
      · exact scanner.isWellFormed_feedPlain c column

theorem isWellFormed_feedLine (scanner : Scanner) (column : Nat) (cs : List Char) :
    ∀ token ∈ (scanner.feedLine column cs).2.1, isWellFormed token.text := by
  induction cs generalizing scanner column with
  | nil => exact List.forall_mem_nil _
  | cons c cs ih =>
      rw [feedLine]
      split
      · simp only [flush_eq]
        exact scanner.isWellFormed_pending
      · exact List.forall_mem_append.mpr ⟨scanner.isWellFormed_feed c (column + 1), ih _ _⟩

/-- The words of a statement are well-formed, whatever the lines that it is read from are. -/
theorem isWellFormed_continueStatement {scanner : Scanner} {begun statement : Statement}
    {source : Source} (hbegun : ∀ token ∈ begun.tokens, isWellFormed token.text)
    (h : (scanner.continueStatement begun source).result = .statement statement) :
    ∀ token ∈ statement.tokens, isWellFormed token.text := by
  induction source generalizing scanner begun with
  | nil =>
      rw [continueStatement, atEnd] at h
      split at h <;> cases h
  | cons answer source ih =>
      cases answer with
      | ended =>
          rw [continueStatement, atEnd] at h
          split at h <;> cases h
      | failed reason => cases h
      | line raw =>
          have hread : ∀ token ∈ (scanner.readLine begun raw).2.tokens,
              isWellFormed token.text := by
            refine List.forall_mem_append.mpr ⟨hbegun, ?_⟩
            exact List.forall_mem_append.mpr ⟨isWellFormed_feedLine _ _ _, isWellFormed_feed _ _ _⟩
          rw [continueStatement] at h
          dsimp only at h
          split at h
          · exact ih hread h
          · split at h
            · exact ih (List.forall_mem_nil _) h
            · cases h
              exact hread

end Scanner

end LineScript
