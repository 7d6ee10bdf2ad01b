import LineScript.Proofs.Lexemes
import LineScript.Proofs.Pieces

/-!
What is open while a source without backslashes is scanned. The scanner remembers the brackets that
the tokens of the statement leave open and, where a text is not finished, the quote that it began
with. This is kept by every character fed.
-/

namespace LineScript

open Expression

def Word.isLiteral (word : Word) : Bool :=
  word.text.toList.head? = some '"'

def Word.quote (word : Word) : Token :=
  { type := .plain, lexeme := utf8 "\"", text := utf8 "\"", line := word.line
    column := word.column }

/-- The spelling of a word that has begun, when so many brackets are open, and its last
character. -/
inductive IsBegun (depth : Nat) (last : Char) : List Char → Prop
  | literal {cs : List Char} (hcs : IsContent cs) (hlast : ('"' :: cs).getLast? = some last) :
      IsBegun depth last ('"' :: cs)
  | word {cs : List Char} (hcs : ∀ c ∈ cs, Scanner.isWordChar depth c = true)
      (hlast : cs.getLast? = some last) : IsBegun depth last cs

namespace Scanner

/-- The text that has begun and is not finished. -/
def literal? (scanner : Scanner) : Option Word :=
  scanner.word.filter Word.isLiteral

theorem literal?_eq_some {scanner : Scanner} {word : Word} (hword : scanner.word = some word)
    (hliteral : word.isLiteral = true) : scanner.literal? = some word := by
  simp [literal?, hword, Option.filter, hliteral]

theorem literal?_eq_none {scanner : Scanner} {word : Word} (hword : scanner.word = some word)
    (hliteral : word.isLiteral = false) : scanner.literal? = none := by
  simp [literal?, hword, Option.filter, hliteral]

/-- A scanner and the tokens of the statement so far; `last` is the last character fed. -/
structure Nests (last : Char) (scanner : Scanner) (tokens : List Token) : Prop where
  escaped : scanner.escaped = false
  openings : scanner.openings =
    scanner.literal?.toList.map (fun word => ⟨.quote, word.quote⟩) ++
      (opened tokens).map (⟨.bracket, ·⟩)
  fitting : Fitting tokens
  begun : ∀ word, scanner.word = some word →
    IsBegun (opened tokens).length last word.text.toList

namespace Nests

variable {last : Char} {scanner : Scanner} {tokens : List Token}

theorem new : Nests '\n' {} [] where
  escaped := rfl
  openings := rfl
  fitting := fitting_nil
  begun := by
    intro word hword
    cases hword

theorem literal?_of_inQuote (h : Nests last scanner tokens) (hquote : scanner.inQuote = true) :
    ∃ word cs, scanner.literal? = some word ∧ scanner.word = some word ∧
      word.text.toList = '"' :: cs ∧ IsContent cs ∧ ('"' :: cs).getLast? = some last := by
  obtain ⟨opening, outer, hopenings, henclosure⟩ := exists_openings_of_inQuote hquote
  have hall := h.openings
  cases hliteral : scanner.literal? with
  | none =>
      rw [hliteral, hopenings] at hall
      cases hopened : opened tokens with
      | nil => simp [hopened] at hall
      | cons first rest =>
          obtain ⟨rfl, -⟩ : opening = ⟨.bracket, first⟩ ∧ _ := by simpa [hopened] using hall
          cases henclosure
  | some word =>
      obtain ⟨hword, hmark⟩ := Option.filter_eq_some_iff.mp hliteral
      have hhead : word.text.toList.head? = some '"' := by simpa [Word.isLiteral] using hmark
      have hbegun := h.begun word hword
      generalize htext : word.text.toList = text at hbegun hhead
      cases hbegun with
      | @literal cs hcs hlast => exact ⟨word, cs, rfl, hword, htext, hcs, hlast⟩
      | word hcs =>
          -- No plain word begins with a quote.
          have hchar := hcs '"' (List.mem_of_head? hhead)
          simp [isWordChar] at hchar

theorem literal?_of_not_inQuote (h : Nests last scanner tokens)
    (hquote : scanner.inQuote = false) : scanner.literal? = none := by
  cases hliteral : scanner.literal? with
  | none => rfl
  | some word => simp [inQuote, h.openings, hliteral] at hquote

theorem openings_of_not_inQuote (h : Nests last scanner tokens)
    (hquote : scanner.inQuote = false) :
    scanner.openings = (opened tokens).map (⟨.bracket, ·⟩) := by
  rw [h.openings, h.literal?_of_not_inQuote hquote]
  rfl

theorem depth_of_not_inQuote (h : Nests last scanner tokens) (hquote : scanner.inQuote = false) :
    scanner.depth = (opened tokens).length := by
  rw [depth, h.openings_of_not_inQuote hquote, List.length_map]

theorem word_of_not_inQuote (h : Nests last scanner tokens) (hquote : scanner.inQuote = false)
    {word : Word} (hword : scanner.word = some word) :
    (∀ c ∈ word.text.toList, isWordChar (opened tokens).length c = true) ∧
      word.text.toList.getLast? = some last := by
  have hnone := h.literal?_of_not_inQuote hquote
  have hplain : word.isLiteral = false := by simpa [literal?, hword] using hnone
  have hhead : word.text.toList.head? ≠ some '"' := by simpa [Word.isLiteral] using hplain
  have hbegun := h.begun word hword
  generalize word.text.toList = text at hbegun hhead
  cases hbegun with
  | literal => exact absurd rfl hhead
  | word hcs hlast => exact ⟨hcs, hlast⟩

theorem word_eq_none (h : Nests '\n' scanner tokens) (hquote : scanner.inQuote = false) :
    scanner.word = none := by
  cases hword : scanner.word with
  | none => rfl
  | some word =>
      obtain ⟨hcs, hlast⟩ := h.word_of_not_inQuote hquote hword
      have hbreak := hcs '\n' (List.mem_of_getLast? hlast)
      exact absurd hbreak (by simp [isWordChar, Text.isBlank])

theorem flush (h : Nests last scanner tokens) (hquote : scanner.inQuote = false) (c : Char) :
    Nests c { scanner with word := none } (tokens ++ scanner.pending) ∧
      opened (tokens ++ scanner.pending) = opened tokens := by
  have hopenings := h.openings_of_not_inQuote hquote
  cases hword : scanner.word with
  | none =>
      rw [pending, hword, Option.toList_none, List.map_nil, List.append_nil]
      refine ⟨⟨h.escaped, hopenings, h.fitting, ?_⟩, rfl⟩
      intro word hsome
      cases hsome
  | some word =>
      obtain ⟨hcs, hlast⟩ := h.word_of_not_inQuote hquote hword
      have hne : word.text.toList ≠ [] := by
        intro hempty
        rw [hempty] at hlast
        cases hlast
      have htoken : word.token =
          Token.ofWord (Text.encode word.text.toList) word.line word.column := by
        rw [Word.token, Text.utf8_eq_encode]
      have htrack : opened (tokens ++ [word.token]) = opened tokens := by
        rw [opened_append_singleton, htoken, Token.track_word hcs]
      rw [pending, hword, Option.toList_some, List.map_singleton]
      refine ⟨⟨h.escaped, ?_, ?_, ?_⟩, htrack⟩
      · rw [htrack]
        exact hopenings
      · refine h.fitting.append_singleton ?_
        rw [htoken]
        exact Token.fits_ofWord (.word hne hcs) _ _
      · intro other hsome
        cases hsome

theorem emit (h : Nests last scanner tokens) (hword : scanner.word = none) {c : Char}
    (hc : IsLexeme (opened tokens).length [c]) (column : Nat) (next : Char) :
    Nests next
      { scanner with openings := (track (opened tokens) (scanner.mark c column)).map (⟨.bracket, ·⟩) }
      (tokens ++ [scanner.mark c column]) where
  escaped := h.escaped
  openings := by
    rw [opened_append_singleton]
    simp [literal?, hword]
  fitting := h.fitting.append_singleton (Token.fits_ofWord hc _ _)
  begun word hsome := by
    rw [show _ = scanner.word from rfl, hword] at hsome
    cases hsome

theorem accumulate_quoted (h : Nests last scanner tokens) (hquote : scanner.inQuote = true)
    {c : Char} (hmark : c ≠ '"') (hbackslash : c ≠ '\\') (hbreak : c = '\n' → last ≠ '\r')
    (column : Nat) : Nests c (scanner.accumulate c column) tokens := by
  obtain ⟨word, cs, hliteral, hword, htext, hcs, hlast⟩ := h.literal?_of_inQuote hquote
  have haccumulate : scanner.accumulate c column =
      { scanner with word := some { word with text := word.text.push c } } := by
    rw [accumulate, hword]
  have hpushed : (word.text.push c).toList = '"' :: (cs ++ [c]) := by
    rw [String.toList_push, htext]
    rfl
  rw [haccumulate]
  refine ⟨h.escaped, ?_, h.fitting, ?_⟩
  · rw [literal?_eq_some rfl (by simp [Word.isLiteral, hpushed])]
    have hopenings := h.openings
    rw [hliteral] at hopenings
    exact hopenings
  · intro other hother
    cases hother
    rw [hpushed]
    refine .literal ⟨?_, ?_, ?_⟩ ?_
    · simp [hcs.quote, Ne.symm hmark]
    · simp [hcs.backslash, Ne.symm hbackslash]
    · -- A carriage return right before a break would have been trimmed with it.
      rw [← List.cons_append]
      refine hcs.breaks.append_singleton ?_
      rintro hc hcarriage
      rw [hlast] at hcarriage
      exact hbreak hc (Option.some.inj hcarriage)
    · rw [← List.cons_append, List.getLast?_concat]

theorem accumulate_word (h : Nests last scanner tokens) (hquote : scanner.inQuote = false)
    {c : Char} (hc : isWordChar scanner.depth c = true) (column : Nat) :
    Nests c (scanner.accumulate c column) tokens := by
  have hopenings := h.openings_of_not_inQuote hquote
  rw [h.depth_of_not_inQuote hquote] at hc
  have hnoquote : c ≠ '"' := by
    rintro rfl
    simp [isWordChar] at hc
  rw [accumulate]
  split
  · refine ⟨h.escaped, ?_, h.fitting, ?_⟩
    · rw [literal?_eq_none rfl (by simp [Word.isLiteral, hnoquote])]
      exact hopenings
    · intro word hword
      cases hword
      rw [String.toList_singleton]
      exact .word (List.forall_mem_singleton.mpr hc) rfl
  · next word hword =>
      obtain ⟨hcs, -⟩ := h.word_of_not_inQuote hquote hword
      have hpushed : ∀ d ∈ word.text.toList ++ [c], isWordChar (opened tokens).length d = true := by
        intro d hd
        rcases List.mem_append.mp hd with hd | hd
        · exact hcs d hd
        · rwa [List.mem_singleton.mp hd]
      have hplain : (word.text.toList ++ [c]).head? ≠ some '"' := by
        intro hfirst
        have hchar := hpushed '"' (List.mem_of_head? hfirst)
        simp [isWordChar] at hchar
      refine ⟨h.escaped, ?_, h.fitting, ?_⟩
      · rw [literal?_eq_none rfl]
        · exact hopenings
        · rw [Word.isLiteral, String.toList_push]
          exact decide_eq_false hplain
      · intro other hother
        cases hother
        rw [String.toList_push]
        exact .word hpushed List.getLast?_concat

theorem closeQuote (h : Nests last scanner tokens) {opening : Opening} {outer : List Opening}
    (hopenings : scanner.openings = opening :: outer) (hquote : opening.enclosure = .quote)
    (column : Nat) :
    Nests '"' { scanner.accumulate '"' column with openings := outer, word := none }
      (tokens ++ (scanner.accumulate '"' column).pending) := by
  obtain ⟨word, cs, hliteral, hword, htext, hcs, -⟩ :=
    h.literal?_of_inQuote (inQuote_of_openings hopenings hquote)
  have htoken : (scanner.accumulate '"' column).pending =
      [Token.ofWord (Text.encode ('"' :: (cs ++ ['"']))) word.line word.column] := by
    simp [accumulate, hword, pending, Word.token, Text.utf8_eq_encode, String.toList_push, htext]
  have houter : outer = (opened tokens).map (⟨.bracket, ·⟩) := by
    have hall := h.openings
    rw [hopenings, hliteral] at hall
    exact (List.cons.inj hall).2
  have hescaped : (scanner.accumulate '"' column).escaped = false := by
    rw [accumulate, hword]
    exact h.escaped
  rw [htoken]
  refine ⟨hescaped, ?_, ?_, ?_⟩
  · rw [opened_append_singleton, Token.track_literal]
    exact houter
  · refine h.fitting.append_singleton ?_
    rw [← List.cons_append]
    exact Token.fits_ofWord (.literal hcs) _ _
  · intro other hother
    cases hother

theorem feed (h : Nests last scanner tokens) {c : Char} (hbackslash : c ≠ '\\')
    (hcomment : scanner.beginsComment c = false) (hbreak : c = '\n' → last ≠ '\r')
    (column : Nat) :
    Nests c (scanner.feed c column).1 (tokens ++ (scanner.feed c column).2) := by
  have hfeeds := feeds h.escaped hbackslash hcomment column
  generalize scanner.feed c column = fed at hfeeds
  cases hfeeds with
  | quoted hquote hmark =>
      rw [List.append_nil]
      exact h.accumulate_quoted hquote hmark hbackslash hbreak column
  | closesQuote hopenings hquote hc =>
      rw [hc]
      exact h.closeQuote hopenings hquote column
  | blank hquote => exact (h.flush hquote c).1
  | opens hquote hc =>
      obtain ⟨hflushed, hopened⟩ := h.flush hquote c
      have hemitted := hflushed.emit rfl .opening column c
      rw [track_start _ rfl, hopened, List.append_assoc] at hemitted
      rw [h.openings_of_not_inQuote hquote]
      exact hemitted
  | colon hquote hc =>
      obtain ⟨hflushed, hopened⟩ := h.flush hquote c
      have hemitted := hflushed.emit rfl .colon column c
      have htype : (mark { scanner with word := none } ':' column).type = .assign := rfl
      rw [track_other _ (by simp [htype]) (by simp [htype]), hopened, List.append_assoc,
        ← h.openings_of_not_inQuote hquote] at hemitted
      exact hemitted
  | opensQuote hquote hc =>
      obtain ⟨hflushed, hopened⟩ := h.flush hquote c
      refine ⟨h.escaped, ?_, hflushed.fitting, ?_⟩
      · rw [literal?_eq_some rfl (by simp [Word.isLiteral]), hopened,
          h.openings_of_not_inQuote hquote]
        rfl
      · intro word hword
        cases hword
        rw [hc, String.toList_singleton]
        refine .literal ⟨List.not_mem_nil, List.not_mem_nil, ?_⟩ rfl
        exact fun hinfix => absurd hinfix.length_le (by simp)
  | closesBracket hquote hopenings hc =>
      obtain ⟨hflushed, hopened⟩ := h.flush hquote c
      have hbrackets := h.openings_of_not_inQuote hquote
      rw [hopenings] at hbrackets
      have hlexeme : IsLexeme (opened (tokens ++ scanner.pending)).length [')'] := by
        rw [hopened]
        cases hall : opened tokens with
        | nil => simp [hall] at hbrackets
        | cons first rest => exact .closing
      have hemitted := hflushed.emit rfl hlexeme column c
      rw [track_end _ rfl, hopened, List.append_assoc, List.map_tail, ← hbrackets] at hemitted
      exact hemitted
  | joins hquote hword =>
      rw [List.append_nil]
      exact h.accumulate_word hquote hword column

theorem feedLine (h : Nests last scanner tokens) {cs : List Char}
    (hcs : ∀ c ∈ cs, c ≠ '\\' ∧ c ≠ '\n') (column : Nat) :
    Nests (cs.getLastD last) (scanner.feedLine column cs).1
      (tokens ++ (scanner.feedLine column cs).2.1) := by
  induction cs generalizing last scanner tokens column with
  | nil =>
      rw [Scanner.feedLine, List.append_nil]
      exact h
  | cons c cs ih =>
      obtain ⟨⟨hbackslash, hbreak⟩, hrest⟩ := List.forall_mem_cons.mp hcs
      rw [Scanner.feedLine]
      split
      · next hcomment =>
          have hquote : scanner.inQuote = false := by
            simp [beginsComment] at hcomment
            exact hcomment.2
          rw [flush_eq]
          exact (h.flush hquote _).1
      · next hcomment =>
          have hfed := h.feed hbackslash (by simpa using hcomment)
            (fun hc => absurd hc hbreak) (column + 1)
          have hread := ih hfed hrest (column + 1)
          rw [List.append_assoc] at hread
          rw [List.getLastD_cons]
          exact hread

theorem scanLine (h : Nests '\n' scanner tokens) {text : Bytes}
    (hbackslash : '\\'.toUInt8 ∉ text) (hbreak : Text.lineFeed ∉ text)
    (hlast : text.getLast? ≠ some Text.carriageReturn) :
    Nests '\n' (scanner.scanLine text).1 (tokens ++ (scanner.scanLine text).2) := by
  have hcs : ∀ c ∈ Text.decode text, c ≠ '\\' ∧ c ≠ '\n' := by
    intro c hmem
    constructor
    · rintro rfl
      exact hbackslash (Text.subset_of_mem_decode hmem (by decide) (by decide))
    · rintro rfl
      exact hbreak (Text.subset_of_mem_decode hmem (by decide) (by decide))
  have hend : (Text.decode text).getLastD '\n' ≠ '\r' := by
    rw [List.getLastD_eq_getLast?]
    cases hchar : (Text.decode text).getLast? with
    | none => decide
    | some c =>
        rintro rfl
        exact hlast (Text.getLast?_of_getLast?_decode hchar (by decide))
  have hnext : Nests '\n' { scanner with line := scanner.line + 1 } tokens :=
    ⟨h.escaped, h.openings, h.fitting, h.begun⟩
  have hread := hnext.feedLine hcs 0
  rw [Scanner.scanLine]
  generalize Scanner.feedLine _ 0 (Text.decode text) = fed at hread
  obtain ⟨read, more, column⟩ := fed
  dsimp only at hread ⊢
  have hready : (if read.inQuote then read else { read with escaped := false }) = read := by
    split
    · rfl
    · rw [← hread.escaped]
  have hbroken := hread.feed (c := '\n') (by decide) (by simp [beginsComment]) (fun _ => hend)
    (column + 1)
  rw [List.append_assoc] at hbroken
  rwa [hready]

end Nests

end Scanner

end LineScript
