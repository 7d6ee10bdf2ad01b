import LineScript.Proofs.Feeding
import LineScript.Proofs.Pieces

/-!
Scanning from the middle of a line. A source splits a text into lines and the scanner loses the
breaks at their ends; here the same is said of one character after another, with the rest of the
text present.
-/

namespace LineScript

namespace Source

def restOfLine (text : Bytes) : Bytes :=
  text.takeWhile (· ≠ Text.lineFeed)

def afterLine (text : Bytes) : Bytes :=
  (text.dropWhile (· ≠ Text.lineFeed)).tail

@[simp]
theorem restOfLine_nil : restOfLine [] = [] := rfl

@[simp]
theorem afterLine_nil : afterLine [] = [] := rfl

@[simp]
theorem restOfLine_lineFeed (text : Bytes) : restOfLine (Text.lineFeed :: text) = [] := by
  simp [restOfLine]

@[simp]
theorem afterLine_lineFeed (text : Bytes) : afterLine (Text.lineFeed :: text) = text := by
  simp [afterLine]

theorem restOfLine_append {front : Bytes} (h : Text.lineFeed ∉ front) (text : Bytes) :
    restOfLine (front ++ text) = front ++ restOfLine text := by
  apply List.takeWhile_append_of_pos
  intro b hmem
  simpa using fun heq : b = Text.lineFeed => h (heq ▸ hmem)

theorem afterLine_append {front : Bytes} (h : Text.lineFeed ∉ front) (text : Bytes) :
    afterLine (front ++ text) = afterLine text := by
  rw [afterLine, List.dropWhile_append_of_pos]
  · rfl
  · intro b hmem
    simpa using fun heq : b = Text.lineFeed => h (heq ▸ hmem)

end Source

namespace Scanner

open Source (restOfLine afterLine splitLines ofBytes restOfLine_append afterLine_append)

@[simp]
theorem trimBreak_nil : trimBreak [] = [] := rfl

theorem trimBreak_cons (b : UInt8) (text : Bytes) :
    trimBreak (b :: text) =
      if trimBreak text = [] ∧ (b = Text.lineFeed ∨ b = Text.carriageReturn) then []
      else b :: trimBreak text := by
  simp only [trimBreak, Text.trimEndWhile, List.reverse_cons, List.dropWhile_append,
    List.isEmpty_iff, List.reverse_eq_nil_iff]
  split
  · next hempty =>
      simp only [hempty, true_and]
      split
      · next hb => simp [hb]
      · next hb => simp [hb]
  · next hrest => simp [hrest]

theorem trimBreak_append {front text : Bytes}
    (h : trimBreak text ≠ [] ∨ Text.lineFeed ∉ front ∧ Text.carriageReturn ∉ front) :
    trimBreak (front ++ text) = front ++ trimBreak text := by
  induction front with
  | nil => rfl
  | cons b front ih =>
      rw [List.cons_append, trimBreak_cons, if_neg, ih]
      · rfl
      · exact h.imp_right fun hfront => by simp_all
      · rintro ⟨hempty, hb⟩
        rcases h with hne | ⟨hfeed, hcarriage⟩
        · have hparts := ih (.inl hne)
          rw [hparts, List.append_eq_nil_iff] at hempty
          exact hne hempty.2
        · rcases hb with rfl | rfl
          · exact hfeed List.mem_cons_self
          · exact hcarriage List.mem_cons_self

theorem trimBreak_eq_nil_of_append {front text : Bytes} (h : trimBreak (front ++ text) = []) :
    trimBreak text = [] := by
  apply Decidable.byContradiction
  intro hne
  rw [trimBreak_append (.inl hne), List.append_eq_nil_iff] at h
  exact hne h.2

theorem splitLines_eq_cons {text : Bytes} (h : text ≠ []) :
    ∃ raw, splitLines text = raw :: splitLines (afterLine text) ∧
      trimBreak raw = trimBreak (restOfLine text) := by
  induction text with
  | nil => exact absurd rfl h
  | cons b rest ih =>
      rw [splitLines]
      split
      · next hb =>
          subst hb
          exact ⟨[Text.lineFeed], by simp, by simp [trimBreak_cons]⟩
      · next hb =>
          have hfront : Text.lineFeed ∉ [b] := by simpa using fun heq => hb heq.symm
          have hline : restOfLine (b :: rest) = b :: restOfLine rest :=
            restOfLine_append hfront rest
          have hafter : afterLine (b :: rest) = afterLine rest := afterLine_append hfront rest
          rw [hline, hafter]
          cases rest with
          | nil => exact ⟨[b], rfl, rfl⟩
          | cons c rest =>
              obtain ⟨raw, hlines, htrimmed⟩ := ih (List.cons_ne_nil c rest)
              rw [hlines]
              refine ⟨b :: raw, rfl, ?_⟩
              rw [trimBreak_cons, trimBreak_cons, htrimmed]

/-- Feeds what is left of a line after the given column, and the break at its end. -/
def finishLine (scanner : Scanner) (column : Nat) (text : Bytes) : Scanner × List Token :=
  let (read, tokens, column) := scanner.feedLine column (Text.decode text)
  let read := if read.inQuote then read else { read with escaped := false }
  let (last, more) := read.feed '\n' (column + 1)
  (last, tokens ++ more)

theorem scanLine_eq_finishLine (scanner : Scanner) (text : Bytes) :
    scanner.scanLine text = { scanner with line := scanner.line + 1 }.finishLine 0 text :=
  rfl

theorem finishLine_char {scanner : Scanner} {c : Char} (h : scanner.beginsComment c = false)
    (column : Nat) (text : Bytes) :
    scanner.finishLine column (String.utf8EncodeChar c ++ text) =
      (((scanner.feed c (column + 1)).1.finishLine (column + 1) text).1,
        (scanner.feed c (column + 1)).2 ++
          ((scanner.feed c (column + 1)).1.finishLine (column + 1) text).2) := by
  have hdecode : Text.decode (String.utf8EncodeChar c ++ text) = c :: Text.decode text := by
    have happend := Text.decode_encode_append [c] text
    simpa [Text.encode] using happend
  rw [finishLine, hdecode, feedLine, if_neg (by simp [h])]
  simp [finishLine]

theorem finishLine_of_not_inQuote {scanner : Scanner} (hquote : scanner.inQuote = false)
    (hescaped : scanner.escaped = false) (column : Nat) :
    scanner.finishLine column [] = ({ scanner with word := none }, scanner.pending) := by
  have hready : { scanner with escaped := false } = scanner := by rw [← hescaped]
  rw [finishLine, show Text.decode [] = [] from rfl, feedLine]
  dsimp only
  rw [if_neg (by simp [hquote]), hready, feed_break_of_not_inQuote hquote hescaped]
  rfl

theorem finishLine_comment {scanner : Scanner} (hquote : scanner.inQuote = false)
    (hescaped : scanner.escaped = false) (column : Nat) (note : Bytes) :
    scanner.finishLine column ('#'.toUInt8 :: note) = scanner.finishLine column [] := by
  have hdecode : Text.decode ('#'.toUInt8 :: note) = '#' :: Text.decode note :=
    Text.decode_encode_append ['#'] note
  have hcomment : scanner.beginsComment '#' = true := by simp [beginsComment, hescaped, hquote]
  have hflushed : Scanner.inQuote { scanner with word := none } = false := hquote
  have hready : Scanner.inQuote { scanner with escaped := false, word := none } = false := hquote
  rw [finishLine_of_not_inQuote hquote hescaped, finishLine, hdecode, feedLine, if_pos hcomment,
    flush_eq]
  dsimp only
  rw [if_neg (by simp [hflushed]), feed_break_of_not_inQuote hready rfl]
  simp [pending, hescaped]

theorem finishLine_of_inQuote {scanner : Scanner} (hquote : scanner.inQuote = true)
    (hescaped : scanner.escaped = false) (column : Nat) :
    scanner.finishLine column [] = (scanner.accumulate '\n' (column + 1), []) := by
  have hready : { scanner with escaped := false } = scanner := by rw [← hescaped]
  rw [finishLine, show Text.decode [] = [] from rfl, feedLine]
  dsimp only
  rw [if_pos hquote, feed_break_of_inQuote hquote, hready]
  rfl

/-- Only the two break characters hold the bytes of breaks. -/
theorem notMem_utf8EncodeChar {c : Char} (hfeed : c ≠ '\n') (hcarriage : c ≠ '\r') :
    Text.lineFeed ∉ String.utf8EncodeChar c ∧ Text.carriageReturn ∉ String.utf8EncodeChar c := by
  constructor
  · intro hmem
    exact hfeed (Text.eq_of_mem_utf8EncodeChar hmem rfl (by decide))
  · intro hmem
    exact hcarriage (Text.eq_of_mem_utf8EncodeChar hmem rfl (by decide))

theorem trimBreak_ne_nil {c : Char} (hfeed : c ≠ '\n') (hcarriage : c ≠ '\r') (text : Bytes) :
    trimBreak (restOfLine (String.utf8EncodeChar c ++ text)) ≠ [] := by
  have hbreaks := notMem_utf8EncodeChar hfeed hcarriage
  rw [restOfLine_append hbreaks.1, trimBreak_append (.inr hbreaks)]
  exact List.append_ne_nil_of_left_ne_nil (Text.utf8EncodeChar_ne_nil c) _

/-- Reading a text to its end from the middle of a line completes a statement; `begun` and `words`
are the spellings of its tokens so far and in all. -/
inductive Completes : Scanner → Nat → List Bytes → Bytes → List Bytes → Prop
  | last {scanner after : Scanner} {column : Nat} {begun : List Bytes} {text : Bytes}
      {tokens : List Token}
      (hline : scanner.finishLine column (trimBreak (restOfLine text)) = (after, tokens))
      (hopenings : after.openings = []) (hend : afterLine text = [])
      (htokens : begun ++ tokens.map Token.lexeme ≠ []) :
      Completes scanner column begun text (begun ++ tokens.map Token.lexeme)
  | next {scanner after : Scanner} {column : Nat} {begun words : List Bytes} {text : Bytes}
      {tokens : List Token}
      (hline : scanner.finishLine column (trimBreak (restOfLine text)) = (after, tokens))
      (hopenings : after.openings ≠ []) (hmore : afterLine text ≠ [])
      (hrest : Completes { after with line := after.line + 1 } 0
        (begun ++ tokens.map Token.lexeme) (afterLine text) words) :
      Completes scanner column begun text words

namespace Completes

variable {scanner : Scanner} {column : Nat} {begun words : List Bytes} {text : Bytes}

theorem continueStatement (h : Completes scanner column begun text words) (first : Scanner)
    (part : Statement)
    (hscanner : scanner = { first with line := first.line + 1 }) (hcolumn : column = 0)
    (hbegun : begun = part.tokens.map Token.lexeme) (htext : text ≠ []) :
    ∃ statement, (first.continueStatement part (ofBytes text)).result = .statement statement ∧
      statement.tokens.map Token.lexeme = words ∧
      (first.continueStatement part (ofBytes text)).source = [] ∧
      (first.continueStatement part (ofBytes text)).scanner.openings = [] := by
  induction h generalizing first part with
  | @last scanner after column begun text tokens hline hopenings hend htokens =>
      obtain ⟨raw, hlines, htrimmed⟩ := splitLines_eq_cons htext
      subst hscanner hcolumn hbegun
      rw [← htrimmed, ← scanLine_eq_finishLine] at hline
      rw [ofBytes, hlines, hend, List.map_cons, Scanner.continueStatement, readLine, hline]
      rw [← List.map_append, Ne, List.map_eq_nil_iff] at htokens
      simp [hopenings, htokens, splitLines]
  | @next scanner after column begun words text tokens hline hopenings hmore hrest ih =>
      obtain ⟨raw, hlines, htrimmed⟩ := splitLines_eq_cons htext
      subst hscanner hcolumn hbegun
      rw [← htrimmed, ← scanLine_eq_finishLine] at hline
      rw [ofBytes, hlines, List.map_cons, Scanner.continueStatement, readLine, hline]
      simp only [ne_eq, hopenings, not_false_eq_true, if_true]
      exact ih _ _ rfl rfl (by simp) hmore

/-- What is read of a line may be read in two parts, of which the second completes the statement. -/
theorem of_line {second : Scanner} {at' : Nat} {rest : Bytes} {tokens : List Token}
    (hline : scanner.finishLine column (trimBreak (restOfLine text)) =
      ((second.finishLine at' (trimBreak (restOfLine rest))).1,
        tokens ++ (second.finishLine at' (trimBreak (restOfLine rest))).2))
    (hafter : afterLine text = afterLine rest)
    (h : Completes second at' (begun ++ tokens.map Token.lexeme) rest words) :
    Completes scanner column begun text words := by
  cases h with
  | last hrest hopenings hend htokens =>
      rw [hrest] at hline
      rw [List.append_assoc, ← List.map_append] at htokens ⊢
      exact .last hline hopenings (hafter.trans hend) htokens
  | next hrest hopenings hmore hcompletes =>
      rw [hrest] at hline
      rw [List.append_assoc, ← List.map_append] at hcompletes
      refine .next hline hopenings (hafter ▸ hmore) ?_
      rwa [hafter]

/-- A character of the line. A carriage return counts as one only where the line goes on. -/
theorem char {c : Char} (hbreak : c ≠ '\n')
    (hcarriage : c = '\r' → trimBreak (restOfLine text) ≠ [])
    (hcomment : scanner.beginsComment c = false)
    (h : Completes (scanner.feed c (column + 1)).1 (column + 1)
      (begun ++ (scanner.feed c (column + 1)).2.map Token.lexeme) text words) :
    Completes scanner column begun (String.utf8EncodeChar c ++ text) words := by
  have hfeed : Text.lineFeed ∉ String.utf8EncodeChar c := by
    by_cases hc : c = '\r'
    · rw [hc]
      decide
    · exact (notMem_utf8EncodeChar hbreak hc).1
  have htrimmed : trimBreak (restOfLine (String.utf8EncodeChar c ++ text)) =
      String.utf8EncodeChar c ++ trimBreak (restOfLine text) := by
    rw [restOfLine_append hfeed]
    apply trimBreak_append
    by_cases hc : c = '\r'
    · exact .inl (hcarriage hc)
    · exact .inr (notMem_utf8EncodeChar hbreak hc)
  have hline := finishLine_char hcomment column (trimBreak (restOfLine text))
  rw [← htrimmed] at hline
  exact of_line hline (afterLine_append hfeed text) h

theorem lineFeed {after : Scanner} {tokens : List Token}
    (hline : scanner.finishLine column [] = (after, tokens)) (hopenings : after.openings ≠ [])
    (htext : text ≠ [])
    (h : Completes { after with line := after.line + 1 } 0 (begun ++ tokens.map Token.lexeme)
      text words) :
    Completes scanner column begun (Text.lineFeed :: text) words := by
  have hbroken : scanner.finishLine column (trimBreak (restOfLine (Text.lineFeed :: text))) =
      (after, tokens) := by simpa using hline
  refine .next hbroken hopenings ?_ ?_
  · simpa using htext
  · simpa using h

theorem atEnd {after : Scanner} {tokens : List Token}
    (hline : scanner.finishLine column [] = (after, tokens)) (hopenings : after.openings = [])
    (htokens : begun ++ tokens.map Token.lexeme ≠ []) :
    Completes scanner column begun [] (begun ++ tokens.map Token.lexeme) :=
  .last hline hopenings rfl htokens

end Completes

end Scanner

end LineScript
