import LineScript.Proofs.Lexemes
import LineScript.Proofs.MidLine
import LineScript.Proofs.WholeProgram
import LineScript.Proofs.Words

namespace LineScript

namespace Literal

/-- The characters of a text as they are written between quotes. -/
def escape (cs : List Char) : List Char :=
  cs.flatMap fun c => if c = '"' ∨ c = '\\' then ['\\', c] else [c]

def written (s : String) : Bytes :=
  Text.encode ('"' :: escape s.toList ++ ['"'])

theorem escape_cons (c : Char) (cs : List Char) :
    escape (c :: cs) = (if c = '"' ∨ c = '\\' then ['\\', c] else [c]) ++ escape cs :=
  List.flatMap_cons

theorem escape_eq_self {cs : List Char} (hquote : '"' ∉ cs) (hbackslash : '\\' ∉ cs) :
    escape cs = cs := by
  induction cs with
  | nil => rfl
  | cons c cs ih =>
      simp only [List.mem_cons, not_or] at hquote hbackslash
      rw [escape_cons, if_neg, ih hquote.2 hbackslash.2]
      · rfl
      · rintro (rfl | rfl)
        · exact hquote.1 rfl
        · exact hbackslash.1 rfl

end Literal

theorem Text.encode_cons_append (c : Char) (cs : List Char) (rest : Bytes) :
    encode (c :: cs) ++ rest = String.utf8EncodeChar c ++ (encode cs ++ rest) := by
  simp [encode]

theorem KeepsBreaks.of_cons {c : Char} {cs : List Char} (h : KeepsBreaks (c :: cs)) :
    KeepsBreaks cs :=
  fun hbroken => h (hbroken.trans (List.suffix_cons c cs).isInfix)

namespace Scanner

open Literal
open Source (restOfLine restOfLine_append)

/-- The line goes on after a carriage return that keeps its place. -/
theorem trimBreak_ne_nil_of_keepsBreaks {cs : List Char} (h : KeepsBreaks ('\r' :: cs))
    (rest : Bytes) :
    trimBreak (restOfLine
      (Text.encode (escape cs) ++ (String.utf8EncodeChar '"' ++ rest))) ≠ [] := by
  induction cs with
  | nil => exact trimBreak_ne_nil (by decide) (by decide) rest
  | cons c cs ih =>
      have hfeed : c ≠ '\n' := by
        rintro rfl
        exact h ⟨[], cs, rfl⟩
      rw [escape_cons]
      split
      · rw [List.cons_append, Text.encode_cons_append]
        exact trimBreak_ne_nil (by decide) (by decide) _
      · rw [List.singleton_append, Text.encode_cons_append]
        by_cases hcarriage : c = '\r'
        · subst hcarriage
          rw [restOfLine_append (by decide)]
          exact fun hempty => ih h.of_cons (trimBreak_eq_nil_of_append hempty)
        · exact trimBreak_ne_nil hfeed hcarriage _

/-- A scanner in a quote, and the characters of the text so far. -/
structure Quoting (openings : List Opening) (cs : List Char) (scanner : Scanner) : Prop where
  openings : scanner.openings = openings
  inQuote : scanner.inQuote = true
  escaped : scanner.escaped = false
  word : scanner.word.map (·.text.toList) = some cs

theorem Quoting.accumulate {openings : List Opening} {cs : List Char} {scanner : Scanner}
    (h : Quoting openings cs scanner) (c : Char) (column : Nat) :
    Quoting openings (cs ++ [c]) (scanner.accumulate c column) := by
  obtain ⟨word, hword, rfl⟩ := Option.map_eq_some_iff.mp h.word
  rw [Scanner.accumulate, hword]
  exact ⟨h.openings, h.inQuote, h.escaped, by simp⟩

namespace Completes

variable {scanner : Scanner} {column : Nat} {begun words : List Bytes} {rest : Bytes}

/-- What is written between quotes is read as it was before it was written. -/
theorem content {openings : List Opening} {before cs : List Char}
    (hbreaks : KeepsBreaks cs) (hquoting : Quoting openings before scanner)
    (h : ∀ after column, Quoting openings (before ++ cs) after →
      Completes after column begun (String.utf8EncodeChar '"' ++ rest) words) :
    Completes scanner column begun
      (Text.encode (escape cs) ++ (String.utf8EncodeChar '"' ++ rest)) words := by
  induction cs generalizing scanner column before with
  | nil =>
      apply h
      rwa [List.append_nil]
  | cons c cs ih =>
      have hrest : ∀ after column, Quoting openings (before ++ [c]) after →
          Completes after column begun
            (Text.encode (escape cs) ++ (String.utf8EncodeChar '"' ++ rest)) words := by
        intro after column hafter
        apply ih hbreaks.of_cons hafter
        simpa using h
      rw [escape_cons]
      split
      · -- A quote or a backslash follows the backslash that was put before it.
        next hspecial =>
          have hfeed : c ≠ '\n' := by rcases hspecial with rfl | rfl <;> decide
          have hcarriage : c ≠ '\r' := by rcases hspecial with rfl | rfl <;> decide
          simp only [List.cons_append, List.nil_append, Text.encode_cons_append]
          apply char (by decide) (by simp) (by simp [beginsComment])
          rw [feed_backslash hquoting.escaped]
          apply char hfeed (fun hc => absurd hc hcarriage) (by simp [beginsComment])
          rw [feed_of_escaped rfl]
          simp only [List.map_nil, List.append_nil]
          have hready : Quoting openings before { scanner with escaped := false } :=
            ⟨hquoting.openings, hquoting.inQuote, rfl, hquoting.word⟩
          exact hrest _ _ (hready.accumulate c _)
      · next hplain =>
          rw [not_or] at hplain
          rw [List.singleton_append, Text.encode_cons_append]
          by_cases hfeed : c = '\n'
          · subst hfeed
            have hread := hquoting.accumulate '\n' (column + 1)
            refine lineFeed (finishLine_of_inQuote hquoting.inQuote hquoting.escaped column) ?_ ?_ ?_
            · intro hempty
              have hquote := hread.inQuote
              simp [Scanner.inQuote, hempty] at hquote
            · simp
            · simp only [List.map_nil, List.append_nil]
              exact hrest _ _ ⟨hread.openings, hread.inQuote, hread.escaped, hread.word⟩
          · refine char hfeed ?_ (by simp [beginsComment, hquoting.inQuote]) ?_
            · rintro rfl
              exact trimBreak_ne_nil_of_keepsBreaks hbreaks rest
            · rw [feed_of_inQuote hquoting.escaped hquoting.inQuote hplain.1 hplain.2]
              simp only [List.map_nil, List.append_nil]
              exact hrest _ _ (hquoting.accumulate c _)

theorem literal {cs : List Char} (hbreaks : KeepsBreaks cs) (hquote : scanner.inQuote = false)
    (hescaped : scanner.escaped = false) (hword : scanner.word = none)
    (h : ∀ after column, after.openings = scanner.openings → after.escaped = false →
      after.word = none →
      Completes after column (begun ++ [Text.encode ('"' :: cs ++ ['"'])]) rest words) :
    Completes scanner column begun
      (Text.encode ('"' :: escape cs ++ ['"']) ++ rest) words := by
  have hbytes : Text.encode ('"' :: escape cs ++ ['"']) ++ rest =
      String.utf8EncodeChar '"' ++
        (Text.encode (escape cs) ++ (String.utf8EncodeChar '"' ++ rest)) := by
    simp [Text.encode]
  rw [hbytes]
  apply char (by decide) (by simp) (by simp [beginsComment])
  rw [feed_opening_quote hescaped hquote]
  simp only [pending, hword, Option.toList_none, List.map_nil, List.append_nil]
  generalize hopened : Opening.mk .quote _ :: scanner.openings = openings
  have hstart : Quoting openings ['"'] { scanner with
      openings, word := some ⟨String.singleton '"', scanner.line, column + 1⟩ } :=
    ⟨rfl, by simp [inQuote, ← hopened], hescaped, by simp⟩
  refine content hbreaks hstart ?_
  intro after column hquoting
  obtain ⟨word, hafter, htext⟩ := Option.map_eq_some_iff.mp hquoting.word
  apply char (by decide) (by simp) (by simp [beginsComment])
  rw [feed_closing_quote hquoting.escaped (hquoting.openings.trans hopened.symm) rfl, accumulate,
    hafter]
  have hlexeme : utf8 (word.text.push '"') = Text.encode ('"' :: cs ++ ['"']) := by
    rw [Text.utf8_eq_encode, String.toList_push, htext]
    rfl
  simp only [pending, Option.toList_some, List.map_singleton, Word.token, Token.lexeme_ofWord,
    hlexeme]
  exact h _ _ rfl hquoting.escaped rfl

end Completes

/-- A text that is scanned as one statement and nothing else. -/
structure ScansTo (text : Bytes) (statement : Statement) : Prop where
  result : (next {} (Source.ofBytes text)).result = .statement statement
  source : (next {} (Source.ofBytes text)).source = []
  openings : (next {} (Source.ofBytes text)).scanner.openings = []
  isWord : ∀ token ∈ statement.tokens, token.IsWord

theorem Completes.scansTo {text : Bytes} {words : List Bytes}
    (h : Completes { line := 1 } 0 [] text words) (htext : text ≠ []) :
    ∃ statement, ScansTo text statement ∧ statement.tokens.map Token.lexeme = words := by
  obtain ⟨statement, hresult, hwords, hsource, hopenings⟩ :=
    h.continueStatement {} {} rfl rfl rfl htext
  have hspelt := (Spells.continueStatement {} Spells.new (Source.ofBytes text)).2
  exact ⟨statement, ⟨hresult, hsource, hopenings, hspelt statement hresult⟩, hwords⟩

theorem ScansTo.scanAll {text : Bytes} {statement : Statement} (h : ScansTo text statement) :
    ∃ last, scanAll {} (Source.ofBytes text) = ([statement], last) ∧ last.result = .ended := by
  rw [scanAll_of_statement h.result, h.source]
  have hempty : ∀ answer ∈ ([] : Source), answer = .ended := by simp
  obtain ⟨hnone, hended, -⟩ := scanAll_of_openings_nil h.openings hempty
  rw [hnone]
  exact ⟨_, rfl, hended⟩

end Scanner

namespace Token

theorem parse?_quoteMark (rest : Bytes) : Number.parse? (quoteMark :: rest) = none := by
  have hdigits : Text.Decimal.toNat? (quoteMark :: rest) = none := by
    rw [Text.Decimal.toNat?, if_neg]
    rintro ⟨-, hall⟩
    simp only [List.all_cons, Bool.and_eq_true] at hall
    exact absurd hall.1 (by decide)
  rw [Number.parse?, Text.Decimal.toInt?, if_neg (by decide), if_neg (by decide), hdigits]
  rfl

theorem classifyWord_quoted (content : Bytes) :
    classifyWord (quoteMark :: content ++ [quoteMark]) = (.text, content) := by
  have hlength : 2 ≤ (quoteMark :: content ++ [quoteMark]).length := by simp
  rw [classifyWord, List.cons_append, parse?_quoteMark, if_neg (by simp), if_pos]
  · simp
  · refine ⟨hlength, rfl, ?_⟩
    rw [← List.cons_append, List.getLast?_concat]

end Token

end LineScript
