import LineScript.Proofs.QuotedTexts
import LineScript.Proofs.Readings

namespace LineScript

open Expression

/-- What stands between two words when so many brackets are open: white space and comments. Only an
open bracket lets the statement go on in another line. -/
inductive IsGap (depth : Nat) : Bytes → Prop
  | blank {c : Char} (hblank : Text.isBlank c = true) (hbreak : c = '\n' → 0 < depth) :
      IsGap depth (String.utf8EncodeChar c)
  | comment {note : Bytes} (hnote : Text.lineFeed ∉ note) (hdepth : 0 < depth) :
      IsGap depth ('#'.toUInt8 :: note ++ [Text.lineFeed])
  | append {front back : Bytes} (hfront : IsGap depth front) (hback : IsGap depth back) :
      IsGap depth (front ++ back)

/-- A text in which the words of some tokens follow each other, after other tokens that stand
before them. -/
inductive Layout : List Token → List Token → Bytes → Prop
  | last {before : List Token} (token : Token) : Layout before [token] token.lexeme
  | cons {before rest : List Token} {token next : Token} {gap text : Bytes}
      (hgap : IsGap (opened (before ++ [token])).length gap)
      (hrest : Layout (before ++ [token]) (next :: rest) text) :
      Layout before (token :: next :: rest) (token.lexeme ++ (gap ++ text))

theorem layout_text {before : List Token} {statement : Statement} (h : statement.tokens ≠ []) :
    Layout before statement.tokens statement.text := by
  rw [Statement.text]
  generalize statement.tokens = tokens at h
  induction tokens generalizing before with
  | nil => exact absurd rfl h
  | cons token rest ih =>
      cases rest with
      | nil =>
          rw [List.map_singleton, Text.join, List.intercalate_singleton]
          exact .last token
      | cons next rest =>
          have hspace : IsGap (opened (before ++ [token])).length (String.utf8EncodeChar ' ') :=
            .blank (by decide) (by simp)
          exact .cons hspace (ih (List.cons_ne_nil next rest))

theorem Token.Fits.isWord {depth : Nat} {token : Token} (h : token.Fits depth) :
    token.IsWord := by
  obtain ⟨cs, hlexeme, htoken⟩ := h
  have hne : cs ≠ [] := by cases hlexeme <;> simp_all
  rw [htoken]
  exact isWord_ofWord (Text.encode_ne_nil hne) _ _

theorem Layout.text_ne_nil {before tokens : List Token} {text : Bytes}
    (h : Layout before tokens text) (hfitting : Fitting (before ++ tokens)) : text ≠ [] := by
  cases h with
  | last token => exact (hfitting before token [] rfl).isWord.lexeme_ne_nil
  | @cons _ rest token next _ _ _ _ =>
      have hfits := hfitting before token (next :: rest) rfl
      exact List.append_ne_nil_of_left_ne_nil hfits.isWord.lexeme_ne_nil _

namespace Scanner

open Source (restOfLine afterLine restOfLine_append afterLine_append)

/-- A scanner outside quotes, and the words so far; the last of them may not be finished. -/
structure Stands (depth : Nat) (done : List Bytes) (scanner : Scanner) (begun : List Bytes) :
    Prop where
  escaped : scanner.escaped = false
  brackets : ∀ opening ∈ scanner.openings, opening.enclosure = .bracket
  depth : scanner.depth = depth
  words : begun ++ scanner.pending.map Token.lexeme = done

namespace Stands

variable {depth : Nat} {done begun : List Bytes} {scanner : Scanner}

theorem inQuote (h : Stands depth done scanner begun) : scanner.inQuote = false := by
  rw [Scanner.inQuote]
  split
  · rfl
  · next opening _ hopenings =>
      have hbracket := h.brackets opening (by simp [hopenings])
      simp [hbracket]

theorem flush (h : Stands depth done scanner begun) :
    Stands depth done { scanner with word := none }
      (begun ++ scanner.pending.map Token.lexeme) where
  escaped := h.escaped
  brackets := h.brackets
  depth := h.depth
  words := by simpa [pending] using h.words

theorem nextLine (h : Stands depth done scanner begun) :
    Stands depth done { scanner with line := scanner.line + 1 } begun :=
  ⟨h.escaped, h.brackets, h.depth, h.words⟩

theorem emit (h : Stands depth done scanner begun) {openings : List Opening}
    (hbrackets : ∀ opening ∈ openings, opening.enclosure = .bracket) (token : Token) :
    Stands openings.length (done ++ [token.lexeme]) { scanner with openings, word := none }
      (begun ++ (scanner.pending ++ [token]).map Token.lexeme) where
  escaped := h.escaped
  brackets := hbrackets
  depth := rfl
  words := by simp [pending, ← h.words]

theorem accumulate (h : Stands depth done scanner begun) (c : Char) (column : Nat) {read : List Char}
    (hread : (scanner.accumulate c column).word.map (·.text.toList) = some read) :
    Stands depth (begun ++ [Text.encode read]) (scanner.accumulate c column) begun := by
  have hsame : (scanner.accumulate c column).escaped = scanner.escaped ∧
      (scanner.accumulate c column).openings = scanner.openings := by
    rw [Scanner.accumulate]
    cases scanner.word <;> exact ⟨rfl, rfl⟩
  obtain ⟨word, hword, rfl⟩ := Option.map_eq_some_iff.mp hread
  constructor
  · rw [hsame.1, h.escaped]
  · rw [hsame.2]
    exact h.brackets
  · rw [Scanner.depth, hsame.2]
    exact h.depth
  · simp [pending, hword, Word.token, Text.utf8_eq_encode]

end Stands

namespace Completes

variable {scanner : Scanner} {column depth : Nat} {begun done words : List Bytes} {text : Bytes}

theorem blank (h : Stands depth done scanner begun) {c : Char} (hblank : Text.isBlank c = true)
    (hbreak : c ≠ '\n')
    (hrest : ∀ column, Completes { scanner with word := none } column
      (begun ++ scanner.pending.map Token.lexeme) text words) :
    Completes scanner column begun (String.utf8EncodeChar c ++ text) words := by
  have hcomment : scanner.beginsComment c = false := by
    have hc : c ≠ '#' := by
      rintro rfl
      exact absurd hblank (by decide)
    simp [beginsComment, hc]
  by_cases htrimmed : c = '\r' ∧ trimBreak (restOfLine text) = []
  · -- The carriage return belongs to the break of its line, which ends the word as well.
    obtain ⟨rfl, htrimmed⟩ := htrimmed
    have hline : restOfLine (String.utf8EncodeChar '\r' ++ text) =
        Text.carriageReturn :: restOfLine text := restOfLine_append (by decide) text
    have hafter : afterLine (String.utf8EncodeChar '\r' ++ text) = afterLine text :=
      afterLine_append (by decide) text
    have hsame : trimBreak (restOfLine (String.utf8EncodeChar '\r' ++ text)) =
        trimBreak (restOfLine text) := by
      rw [hline, trimBreak_cons, htrimmed]
      simp
    have hquote : Scanner.inQuote { scanner with word := none } = false := h.inQuote
    have hflushed : scanner.finishLine column
        (trimBreak (restOfLine (String.utf8EncodeChar '\r' ++ text))) =
          ((Scanner.finishLine { scanner with word := none } column
              (trimBreak (restOfLine text))).1,
            scanner.pending ++ (Scanner.finishLine { scanner with word := none } column
              (trimBreak (restOfLine text))).2) := by
      rw [hsame, htrimmed, finishLine_of_not_inQuote h.inQuote h.escaped,
        finishLine_of_not_inQuote hquote h.escaped]
      simp [pending]
    exact of_line hflushed hafter (hrest column)
  · refine char hbreak (fun hc hempty => htrimmed ⟨hc, hempty⟩) hcomment ?_
    rw [feed_blank h.escaped h.inQuote hblank]
    exact hrest _

theorem lineBreak (h : Stands depth done scanner begun) (hdepth : 0 < depth) (htext : text ≠ [])
    {line : Bytes} (hline : Text.lineFeed ∉ line)
    (hempty : scanner.finishLine column (trimBreak line) = scanner.finishLine column [])
    (hrest : ∀ after column begun, Stands depth done after begun → after.word = none →
      Completes after column begun text words) :
    Completes scanner column begun (line ++ Text.lineFeed :: text) words := by
  have hfirst : restOfLine (line ++ Text.lineFeed :: text) = line := by
    rw [restOfLine_append hline, Source.restOfLine_lineFeed, List.append_nil]
  have hafter : afterLine (line ++ Text.lineFeed :: text) = text := by
    rw [afterLine_append hline, Source.afterLine_lineFeed]
  have hfinish : scanner.finishLine column (trimBreak (restOfLine (line ++ Text.lineFeed :: text))) =
      ({ scanner with word := none }, scanner.pending) := by
    rw [hfirst, hempty, finishLine_of_not_inQuote h.inQuote h.escaped]
  refine .next hfinish ?_ (by rwa [hafter]) ?_
  · intro hopenings
    have hnone := h.depth
    rw [Scanner.depth, show scanner.openings = [] from hopenings] at hnone
    exact absurd hnone (Nat.ne_of_lt hdepth)
  · rw [hafter]
    exact hrest _ _ _ h.flush.nextLine rfl

theorem gap {gap : Bytes} (hgap : IsGap depth gap) (h : Stands depth done scanner begun)
    (htext : text ≠ [])
    (hrest : ∀ after column begun, Stands depth done after begun → after.word = none →
      Completes after column begun text words) :
    Completes scanner column begun (gap ++ text) words := by
  induction hgap generalizing scanner column begun text with
  | @blank c hblank hbreak =>
      by_cases hc : c = '\n'
      · subst hc
        exact lineBreak h (hbreak rfl) htext List.not_mem_nil rfl hrest
      · exact blank h hblank hc fun column => hrest _ column _ h.flush rfl
  | @comment note hnote hdepth =>
      have hline : Text.lineFeed ∉ '#'.toUInt8 :: note := by
        rw [List.mem_cons]
        exact not_or.mpr ⟨by decide, hnote⟩
      have htrimmed : trimBreak ('#'.toUInt8 :: note) = '#'.toUInt8 :: trimBreak note :=
        @trimBreak_append ['#'.toUInt8] note (.inr (by decide))
      rw [List.append_assoc, List.singleton_append]
      refine lineBreak h hdepth htext hline ?_ hrest
      rw [htrimmed, finishLine_comment h.inQuote h.escaped]
  | @append front back hfront hback ihfront ihback =>
      rw [List.append_assoc]
      refine ihfront h (List.append_ne_nil_of_right_ne_nil _ htext) ?_
      intro after column begun hafter _
      exact ihback hafter htext hrest

theorem wordChar (h : Stands depth done scanner begun) {c : Char}
    (hc : isWordChar depth c = true)
    (hrest : Completes (scanner.accumulate c (column + 1)) (column + 1) begun text words) :
    Completes scanner column begun (String.utf8EncodeChar c ++ text) words := by
  have hne : ∀ {other}, isWordChar depth other = false → c ≠ other := by
    rintro other hother rfl
    rw [hc] at hother
    cases hother
  have hcomment : scanner.beginsComment c = false := by
    have hhash : c ≠ '#' := hne (by simp [isWordChar])
    simp [beginsComment, hhash]
  refine char (hne (by simp [isWordChar, Text.isBlank])) ?_ hcomment ?_
  · intro hcarriage
    exact absurd hcarriage (hne (by simp [isWordChar, Text.isBlank]))
  · rw [feed_word h.escaped h.inQuote (h.depth ▸ hc)]
    simpa using hrest

theorem chars {read cs : List Char}
    (h : Stands depth (begun ++ [Text.encode read]) scanner begun)
    (hread : scanner.word.map (·.text.toList) = some read)
    (hcs : ∀ c ∈ cs, isWordChar depth c = true)
    (hrest : ∀ after column, Stands depth (begun ++ [Text.encode (read ++ cs)]) after begun →
      Completes after column begun text words) :
    Completes scanner column begun (Text.encode cs ++ text) words := by
  induction cs generalizing scanner column read with
  | nil =>
      rw [List.append_nil] at hrest
      exact hrest scanner column h
  | cons c cs ih =>
      obtain ⟨hc, hcs⟩ := List.forall_mem_cons.mp hcs
      have hread : (scanner.accumulate c (column + 1)).word.map (·.text.toList) =
          some (read ++ [c]) := by
        obtain ⟨word, hword, rfl⟩ := Option.map_eq_some_iff.mp hread
        simp [accumulate, hword]
      rw [Text.encode_cons_append]
      refine wordChar h hc (ih (h.accumulate c _ hread) hread hcs ?_)
      simpa using hrest

theorem word {cs : List Char} (h : Stands depth done scanner begun) (hword : scanner.word = none)
    (hne : cs ≠ []) (hcs : ∀ c ∈ cs, isWordChar depth c = true)
    (hrest : ∀ after column, Stands depth (begun ++ [Text.encode cs]) after begun →
      Completes after column begun text words) :
    Completes scanner column begun (Text.encode cs ++ text) words := by
  obtain ⟨c, cs, rfl⟩ := List.exists_cons_of_ne_nil hne
  obtain ⟨hc, hcs⟩ := List.forall_mem_cons.mp hcs
  have hread : (scanner.accumulate c (column + 1)).word.map (·.text.toList) = some [c] := by
    simp [accumulate, hword]
  rw [Text.encode_cons_append]
  exact wordChar h hc (chars (h.accumulate c _ hread) hread hcs hrest)

theorem mark {c : Char} (hc : c = '(' ∨ c = ')' ∨ c = ':') {next : Nat}
    (h : Stands depth done scanner begun)
    (hfeed : ∀ column, ∃ openings : List Opening,
      scanner.feed c column =
        ({ scanner with openings, word := none }, scanner.pending ++ [scanner.mark c column]) ∧
      (∀ opening ∈ openings, opening.enclosure = .bracket) ∧ openings.length = next)
    (hrest : ∀ after column begun, Stands next (done ++ [Text.encode [c]]) after begun →
      Completes after column begun text words) :
    Completes scanner column begun (Text.encode [c] ++ text) words := by
  have hne : c ≠ '\n' ∧ c ≠ '\r' ∧ c ≠ '#' := by rcases hc with rfl | rfl | rfl <;> decide
  obtain ⟨openings, hfed, hbrackets, rfl⟩ := hfeed (column + 1)
  rw [Text.encode_cons_append]
  refine char hne.1 (fun hcarriage => absurd hcarriage hne.2.1) (by simp [beginsComment, hne.2.2]) ?_
  rw [hfed]
  exact hrest _ _ _ (h.emit hbrackets (scanner.mark c (column + 1)))

theorem token {stack : List Token} {token : Token} (hfits : token.Fits stack.length)
    (h : Stands stack.length done scanner begun) (hword : scanner.word = none)
    (hrest : ∀ after column begun,
      Stands (track stack token).length (done ++ [token.lexeme]) after begun →
      Completes after column begun text words) :
    Completes scanner column begun (token.lexeme ++ text) words := by
  obtain ⟨cs, hlexeme, htoken⟩ := hfits
  have hspelt : token.lexeme = Text.encode cs := by
    rw [htoken]
    rfl
  have hdone : begun = done := by simpa [pending, hword] using h.words
  subst hdone
  rw [hspelt] at hrest ⊢
  generalize hlength : stack.length = depth at hlexeme h
  cases hlexeme with
  | opening =>
      have htype : token.type = .functionStart := htoken ▸ rfl
      rw [track_start _ htype, List.length_cons, hlength] at hrest
      refine mark (.inl rfl) h ?_ hrest
      intro column
      refine ⟨_, feed_open h.escaped h.inQuote column, ?_, congrArg (· + 1) h.depth⟩
      exact List.forall_mem_cons.mpr ⟨rfl, h.brackets⟩
  | @closing outside =>
      have htype : token.type = .functionEnd := htoken ▸ rfl
      rw [track_end _ htype, List.length_tail, hlength, Nat.add_sub_cancel] at hrest
      obtain ⟨opening, outer, hopenings⟩ := List.exists_cons_of_length_eq_add_one h.depth
      obtain ⟨hbracket, houter⟩ := List.forall_mem_cons.mp (hopenings ▸ h.brackets)
      refine mark (.inr (.inl rfl)) h ?_ hrest
      intro column
      refine ⟨outer, feed_closing_bracket h.escaped hopenings hbracket column, houter, ?_⟩
      have hdepth := h.depth
      rw [Scanner.depth, hopenings, List.length_cons] at hdepth
      exact Nat.add_right_cancel hdepth
  | colon =>
      have htype : token.type = .assign := htoken ▸ rfl
      rw [track_other _ (by simp [htype]) (by simp [htype]), hlength] at hrest
      refine mark (.inr (.inr rfl)) h ?_ hrest
      intro column
      exact ⟨scanner.openings, feed_colon h.escaped h.inQuote column, h.brackets, h.depth⟩
  | word hne hcs =>
      rw [htoken, Token.track_word (by rwa [hlength]), hlength] at hrest
      exact word h hword hne hcs fun after column hafter => hrest after column _ hafter
  | literal hcs =>
      rw [htoken, List.cons_append, Token.track_literal, hlength] at hrest
      have hescape := Literal.escape_eq_self hcs.quote hcs.backslash
      rw [← hescape]
      refine literal hcs.breaks.of_cons h.inQuote h.escaped hword ?_
      intro after column hopenings hescaped hnone
      refine hrest after column _ ⟨hescaped, hopenings ▸ h.brackets, ?_, ?_⟩
      · rw [Scanner.depth, hopenings]
        exact h.depth
      · simp [pending, hnone]

/-- Whatever the layout, its words are read. -/
theorem layout {before tokens : List Token} {text : Bytes} (hlayout : Layout before tokens text)
    (hfitting : Fitting (before ++ tokens)) (hclosed : opened (before ++ tokens) = [])
    (h : Stands (opened before).length (before.map Token.lexeme) scanner begun)
    (hword : scanner.word = none) :
    Completes scanner column begun text ((before ++ tokens).map Token.lexeme) := by
  -- After each word the scanner stands where the words so far leave it, at their depth, and the
  -- word before a gap may still be open.
  induction hlayout generalizing scanner column begun with
  | @last before last =>
      rw [← List.append_nil last.lexeme]
      refine token (hfitting before last [] rfl) h hword ?_
      intro after column begun hafter
      rw [← opened_append_singleton, hclosed] at hafter
      have hline := finishLine_of_not_inQuote hafter.inQuote hafter.escaped column
      have hopenings : after.openings = [] := List.length_eq_zero_iff.mp hafter.depth
      have hwords := hafter.words
      have hnonempty : begun ++ after.pending.map Token.lexeme ≠ [] := by simp [hwords]
      have hend := atEnd hline hopenings hnonempty
      rw [hwords] at hend
      simpa using hend
  | @cons before rest first next space text hgap hrest ih =>
      refine token (hfitting before first (next :: rest) rfl) h hword ?_
      intro after column begun hafter
      have hsplit : before ++ first :: next :: rest = before ++ [first] ++ next :: rest := by simp
      rw [hsplit] at hfitting hclosed ⊢
      rw [← opened_append_singleton, ← List.map_singleton, ← List.map_append] at hafter
      refine gap hgap hafter (hrest.text_ne_nil hfitting) ?_
      intro after column begun hafter hnone
      exact ih hfitting hclosed hafter hnone

end Completes

/-- Every statement of a source without backslashes is spelt as it has to be, and closes its
brackets. -/
theorem Fresh.fitting_scanAll {scanner : Scanner} {source : Source} (h : scanner.Fresh)
    (hplain : source.Plain) {statement : Statement}
    (hmem : statement ∈ (scanner.scanAll source).1) :
    Fitting statement.tokens ∧ opened statement.tokens = [] ∧ statement.tokens ≠ [] := by
  fun_induction scanAll scanner source with
  | case1 scanner source found hresult hshorter statements last hrest ih =>
      have hreads := h.readsSoundly hplain
      rcases List.mem_cons.mp hmem with rfl | hmem
      · obtain ⟨hnests, -, htokens⟩ := hreads.statement statement hresult
        refine ⟨hnests.fitting, ?_, htokens⟩
        rw [opened_eq_reverse_unclosed, hreads.unclosed_eq_nil hresult, List.reverse_nil]
      · apply ih (hreads.fresh hresult) hreads.plain
        rwa [hrest]
  | case2 => cases hmem

end Scanner

/-- What a token says, wherever it stands. -/
def Token.content (token : Token) : TokenType × Bytes × Bytes :=
  (token.type, token.lexeme, token.text)

theorem Token.map_content_eq {tokens others : List Token} (h : ∀ token ∈ tokens, token.IsWord)
    (hothers : ∀ token ∈ others, token.IsWord)
    (hsame : tokens.map lexeme = others.map lexeme) :
    tokens.map content = others.map content := by
  have hspelt : ∀ tokens : List Token, (∀ token ∈ tokens, token.IsWord) →
      tokens.map content = (tokens.map lexeme).map fun word => (ofWord word 0 0).content := by
    intro tokens h
    rw [List.map_map]
    apply List.map_congr_left
    intro token hmem
    rw [(h token hmem).eq_ofWord]
    rfl
  rw [hspelt tokens h, hspelt others hothers, hsame]

/-- Scanning undoes printing. A statement of a source without backslashes is scanned again from each
of its layouts, of which its words with single spaces are one. -/
theorem scan_layout {source : Bytes} (hsource : '\\'.toUInt8 ∉ source) {statement : Statement}
    (hmem : statement ∈ (Scanner.scanAll {} (Source.ofBytes source)).1) :
    Layout [] statement.tokens statement.text ∧
    ∀ text, Layout [] statement.tokens text →
      ∃ again last, Scanner.scanAll {} (Source.ofBytes text) = ([again], last) ∧
        last.result = .ended ∧
        again.tokens.map Token.content = statement.tokens.map Token.content := by
  obtain ⟨hfitting, hclosed, htokens⟩ :=
    Scanner.fresh_new.fitting_scanAll (Source.plain_ofBytes hsource) hmem
  refine ⟨layout_text htokens, ?_⟩
  intro text hlayout
  have hstands : Scanner.Stands (opened []).length ([].map Token.lexeme) { line := 1 } [] :=
    ⟨rfl, by simp, rfl, rfl⟩
  have hcompletes : Scanner.Completes { line := 1 } 0 [] text (statement.tokens.map Token.lexeme) :=
    .layout hlayout hfitting hclosed hstands rfl
  obtain ⟨again, hscans, hwords⟩ := hcompletes.scansTo (hlayout.text_ne_nil hfitting)
  obtain ⟨last, hscan, hended⟩ := hscans.scanAll
  refine ⟨again, last, hscan, hended, Token.map_content_eq hscans.isWord ?_ hwords⟩
  intro token hmem
  obtain ⟨before, after, hsplit⟩ := List.append_of_mem hmem
  exact (hfitting before token after hsplit).isWord

def strayBracket : Bytes :=
  utf8 "(cat \"#\n\" 1) )\n"

def strayBracketTokens : List Token :=
  [.ofWord (utf8 "(") 1 1, .ofWord (utf8 "cat") 1 2, .ofWord (utf8 "\"#\n\"") 1 6,
    .ofWord (utf8 "1") 2 3, .ofWord (utf8 ")") 2 4, .ofWord (utf8 ")") 2 6]

theorem scan_layout_strayBracket :
    ∃ statement again last,
      (Scanner.scanAll {} (Source.ofBytes strayBracket)).1 = [statement] ∧
      statement.tokens = strayBracketTokens ∧
      Scanner.scanAll {} (Source.ofBytes (utf8 "( cat#)\n\t\"#\n\"\r\n1 ) )")) = ([again], last) ∧
      last.result = .ended ∧
      again.tokens.map Token.content = statement.tokens.map Token.content := by
  let statement : Statement :=
    { number := 1, source := [utf8 "(cat \"#", utf8 "\" 1) )"], tokens := strayBracketTokens }
  have hscans : Scanner.ScansTo strayBracket statement := by
    constructor <;> decide +kernel
  obtain ⟨end', hscan, -⟩ := hscans.scanAll
  have hmem : statement ∈ (Scanner.scanAll {} (Source.ofBytes strayBracket)).1 := by simp [hscan]
  have hspace : ∀ depth, IsGap depth (utf8 " ") := fun _ => .blank (c := ' ') (by decide) (by simp)
  have hcomment : IsGap 1 (utf8 "#)\n\t") := by
    have hnote : IsGap 1 ('#'.toUInt8 :: utf8 ")" ++ [Text.lineFeed]) :=
      .comment (by decide) (by decide)
    exact hnote.append (.blank (c := '\t') (by decide) (by simp))
  have hbreak : IsGap 1 (utf8 "\r\n") :=
    .append (.blank (c := '\r') (by decide) (by simp)) (.blank (c := '\n') (by decide) (by simp))
  have hlayout : Layout [] statement.tokens (utf8 "( cat#)\n\t\"#\n\"\r\n1 ) )") := by
    have htext : utf8 "( cat#)\n\t\"#\n\"\r\n1 ) )" =
        utf8 "(" ++ (utf8 " " ++ (utf8 "cat" ++ (utf8 "#)\n\t" ++ (utf8 "\"#\n\"" ++
          (utf8 "\r\n" ++ (utf8 "1" ++ (utf8 " " ++ (utf8 ")" ++ (utf8 " " ++ utf8 ")"))))))))) := by
      decide +kernel
    rw [htext]
    refine .cons (hspace _) (.cons ?_ (.cons ?_ (.cons (hspace _) (.cons (hspace _) (.last _)))))
    · exact hcomment
    · exact hbreak
  obtain ⟨again, last, hagain⟩ := (scan_layout (by decide +kernel) hmem).2 _ hlayout
  exact ⟨statement, again, last, by rw [hscan], rfl, hagain⟩

end LineScript
