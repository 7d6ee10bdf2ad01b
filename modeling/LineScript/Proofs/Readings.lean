import LineScript.Proofs.Nesting

namespace LineScript

namespace Source

/-- Every answer is a line without backslashes and with no line feed but at its end. -/
def Plain (source : Source) : Prop :=
  ∀ answer ∈ source, ∃ raw, answer = .line raw ∧ '\\'.toUInt8 ∉ raw ∧
    Text.lineFeed ∉ Scanner.trimBreak raw

theorem Plain.of_suffix {source rest : Source} (h : source.Plain) (hsuffix : rest <:+ source) :
    rest.Plain :=
  fun answer hmem => h answer (hsuffix.subset hmem)

theorem lineFeed_notMem_dropLast {text raw : Bytes} (hmem : raw ∈ splitLines text) :
    Text.lineFeed ∉ raw.dropLast := by
  induction text generalizing raw with
  | nil => cases hmem
  | cons b rest ih =>
      rw [splitLines] at hmem
      split at hmem
      · rcases List.mem_cons.mp hmem with rfl | hmem
        · exact List.not_mem_nil
        · exact ih hmem
      · next hb =>
          split at hmem
          · obtain rfl := List.mem_singleton.mp hmem
            exact List.not_mem_nil
          · next line lines hlines =>
              rcases List.mem_cons.mp hmem with rfl | hmem
              · have hline : Text.lineFeed ∉ line.dropLast := ih (hlines ▸ List.mem_cons_self)
                cases line with
                | nil => exact List.not_mem_nil
                | cons first more =>
                    rw [List.dropLast_cons_cons, List.mem_cons]
                    rintro (heq | hmore)
                    · exact hb heq.symm
                    · exact hline hmore
              · exact ih (hlines ▸ List.mem_cons_of_mem _ hmem)

theorem lineFeed_notMem_trimBreak {raw : Bytes} (h : Text.lineFeed ∉ raw.dropLast) :
    Text.lineFeed ∉ Scanner.trimBreak raw := by
  obtain ⟨ending, hraw, -, hlast⟩ := Scanner.isTrimmed_trimBreak raw
  intro hmem
  obtain ⟨front, last, hfront⟩ :=
    List.eq_nil_or_concat (Scanner.trimBreak raw) |>.resolve_left (List.ne_nil_of_mem hmem)
  rw [List.concat_eq_append] at hfront
  rw [hfront] at hraw hlast hmem
  rcases List.mem_append.mp hmem with hmem | hmem
  · refine h ?_
    rw [hraw, List.append_assoc, List.singleton_append,
      List.dropLast_append_of_ne_nil (List.cons_ne_nil last ending)]
    exact List.mem_append_left _ hmem
  · exact (hlast last List.getLast?_concat).1 (List.mem_singleton.mp hmem).symm

theorem plain_ofBytes {text : Bytes} (h : '\\'.toUInt8 ∉ text) : (ofBytes text).Plain := by
  intro answer hmem
  obtain ⟨raw, hraw, rfl⟩ := List.mem_map.mp hmem
  refine ⟨raw, rfl, ?_, lineFeed_notMem_trimBreak (lineFeed_notMem_dropLast hraw)⟩
  intro hbackslash
  rw [← flatten_splitLines text] at h
  exact h (List.mem_flatten.mpr ⟨raw, hraw, hbackslash⟩)

end Source

open Expression

/-- A scanner that is about to read a line and the part of the statement that has been read. -/
structure Reading where
  scanner : Scanner
  begun : Statement

namespace Reading

/-- What is open, innermost last: brackets, and the quote of a text that is not finished. -/
def openers (reading : Reading) : List Token :=
  unclosed reading.begun.tokens ++ reading.scanner.literal?.toList.map Word.quote

/-- The scanner knows what is open, which is nothing before the first line of a statement. -/
structure Sound (reading : Reading) : Prop where
  nests : Scanner.Nests '\n' reading.scanner reading.begun.tokens
  start : reading.begun.source = [] → reading.scanner.openings = []

def awaited (reading : Reading) : Char :=
  if reading.scanner.literal?.isSome then '"' else ')'

variable {reading : Reading}

theorem Sound.opener_openings (h : reading.Sound) :
    reading.scanner.openings.map Opening.opener = reading.openers.reverse := by
  rw [h.nests.openings, opened_eq_reverse_unclosed, openers, List.reverse_append,
    ← List.map_reverse, List.map_append, List.map_map, List.map_map]
  congr 1
  · cases reading.scanner.literal? <;> rfl
  · exact List.map_id _

theorem Sound.depth_eq (h : reading.Sound) :
    reading.scanner.depth = reading.openers.length := by
  rw [Scanner.depth, ← List.length_map Opening.opener, h.opener_openings, List.length_reverse]

theorem Sound.atEnd (h : reading.Sound) :
    reading.scanner.atEnd reading.begun =
      match reading.openers.getLast? with
      | none => .ended
      | some opener => .failed reading.begun (.malformed opener
          (.unclosed (Text.encode [reading.awaited]) opener.lexeme opener.line)) := by
  rw [← List.head?_reverse, ← h.opener_openings, List.head?_map, Scanner.atEnd]
  have hopenings := h.nests.openings
  cases hfirst : reading.scanner.openings with
  | nil => rfl
  | cons opening outer =>
      have hclosing : opening.enclosure.closing = reading.awaited := by
        rw [hfirst] at hopenings
        rw [awaited]
        cases hliteral : reading.scanner.literal? with
        | some word =>
            rw [hliteral] at hopenings
            rw [(List.cons.inj hopenings).1]
            rfl
        | none =>
            rw [hliteral] at hopenings
            cases hopened : opened reading.begun.tokens with
            | nil => simp [hopened] at hopenings
            | cons token tokens =>
                rw [hopened] at hopenings
                rw [(List.cons.inj hopenings).1]
                rfl
      rw [← hclosing]
      rfl

end Reading

namespace Scanner

def readings (scanner : Scanner) (begun : Statement) : Source → List Reading
  | .line raw :: source =>
      let (after, statement) := scanner.readLine begun raw
      ⟨scanner, begun⟩ ::
        if after.openings ≠ [] then after.readings statement source
        else if statement.tokens = [] then after.readings {} source
        else []
  | _ => [⟨scanner, begun⟩]

theorem depths_continueStatement (scanner : Scanner) (begun : Statement) (source : Source) :
    (scanner.continueStatement begun source).depths =
      (scanner.readings begun source).map (·.scanner.depth) := by
  induction source generalizing scanner begun with
  | nil => rfl
  | cons answer source ih =>
      cases answer with
      | ended => rfl
      | failed reason => rfl
      | line raw =>
          rw [continueStatement, readings]
          dsimp only
          split
          · rw [List.map_cons, ← ih]
          · split
            · rw [List.map_cons, ← ih]
            · rfl

theorem Nests.restart {scanner : Scanner} {tokens : List Token} (h : Nests '\n' scanner tokens)
    (hopenings : scanner.openings = []) : Nests '\n' scanner [] := by
  have hquote : scanner.inQuote = false := by rw [inQuote, hopenings]
  have hword := h.word_eq_none hquote
  refine ⟨h.escaped, ?_, fitting_nil, ?_⟩
  · rw [hopenings, h.literal?_of_not_inQuote hquote]
    rfl
  · intro word hsome
    rw [hword] at hsome
    cases hsome

theorem Nests.readLine {scanner : Scanner} {begun : Statement}
    (h : Nests '\n' scanner begun.tokens) {raw : Bytes} (hbackslash : '\\'.toUInt8 ∉ raw)
    (hbreak : Text.lineFeed ∉ trimBreak raw) :
    Nests '\n' (scanner.readLine begun raw).1 (scanner.readLine begun raw).2.tokens := by
  obtain ⟨ending, hraw, -, hlast⟩ := isTrimmed_trimBreak raw
  refine h.scanLine ?_ hbreak fun hcarriage => (hlast _ hcarriage).2 rfl
  rw [hraw] at hbackslash
  exact fun hmem => hbackslash (List.mem_append_left _ hmem)

/-- What a scan of a source without backslashes comes to and the reads that it makes: the brackets of
a statement are closed, and without a statement the source has ended at the last of the reads. -/
structure ReadsSoundly (readings : List Reading) (scan : Scan) : Prop where
  sound : ∀ reading ∈ readings, reading.Sound
  plain : scan.source.Plain
  statement : ∀ statement, scan.result = .statement statement →
    Nests '\n' scan.scanner statement.tokens ∧ scan.scanner.openings = [] ∧ statement.tokens ≠ []
  ended : (∀ statement, scan.result ≠ .statement statement) →
    scan.source = [] ∧ ∃ last, readings.getLast? = some last ∧
      scan.result = last.scanner.atEnd last.begun

theorem ReadsSoundly.cons {readings : List Reading} {scan : Scan} {reading : Reading}
    (h : ReadsSoundly readings scan) (hreading : reading.Sound) (depths : List Nat) :
    ReadsSoundly (reading :: readings) { scan with depths } where
  sound := List.forall_mem_cons.mpr ⟨hreading, h.sound⟩
  plain := h.plain
  statement := h.statement
  ended := by
    intro hresult
    obtain ⟨hsource, last, hlast, hend⟩ := h.ended hresult
    refine ⟨hsource, last, ?_, hend⟩
    rw [List.getLast?_cons, hlast]
    rfl

theorem atEnd_ne_statement (scanner : Scanner) (begun statement : Statement) :
    scanner.atEnd begun ≠ .statement statement := by
  rw [atEnd]
  split <;> simp

theorem readsSoundly_continueStatement {scanner : Scanner} {begun : Statement} {source : Source}
    (hplain : source.Plain) (h : Reading.Sound ⟨scanner, begun⟩) :
    ReadsSoundly (scanner.readings begun source) (scanner.continueStatement begun source) := by
  induction source generalizing scanner begun with
  | nil =>
      refine ⟨List.forall_mem_singleton.mpr h, hplain, ?_, fun _ => ⟨rfl, _, rfl, rfl⟩⟩
      intro statement hstatement
      exact absurd hstatement (atEnd_ne_statement scanner begun statement)
  | cons answer source ih =>
      obtain ⟨raw, rfl, hbackslash, hbreak⟩ := hplain answer List.mem_cons_self
      have hrest := hplain.of_suffix (List.suffix_cons _ source)
      have hread := h.nests.readLine hbackslash hbreak
      have hsource : (scanner.readLine begun raw).2.source ≠ [] :=
        List.append_ne_nil_of_right_ne_nil _ (List.cons_ne_nil _ _)
      rw [continueStatement, readings]
      generalize scanner.readLine begun raw = read at hread hsource
      obtain ⟨after, statement⟩ := read
      dsimp only at hread hsource ⊢
      split
      · exact (ih hrest ⟨hread, fun hempty => absurd hempty hsource⟩).cons h _
      · next hopenings =>
          have hopenings : after.openings = [] := by simpa using hopenings
          split
          · exact (ih hrest ⟨hread.restart hopenings, fun _ => hopenings⟩).cons h _
          · next htokens =>
              refine ⟨List.forall_mem_singleton.mpr h, hrest, ?_, ?_⟩
              · rintro found hfound
                cases hfound
                exact ⟨hread, hopenings, htokens⟩
              · intro hresult
                exact absurd rfl (hresult statement)

/-- A scanner that has yielded a statement each time it was asked for one, and what is left of its
source. -/
inductive Proceeds (source : Source) : Scanner → Source → Prop
  | start : Proceeds source {} source
  | next {scanner : Scanner} {rest : Source} {statement : Statement}
      (h : Proceeds source scanner rest)
      (hresult : (scanner.next rest).result = .statement statement) :
      Proceeds source (scanner.next rest).scanner (scanner.next rest).source

/-- A scanner between two statements of a source without backslashes. -/
structure Fresh (scanner : Scanner) : Prop where
  nests : Nests '\n' scanner []
  openings : scanner.openings = []

theorem fresh_new : Fresh {} :=
  ⟨.new, rfl⟩

theorem Fresh.readsSoundly {scanner : Scanner} (h : scanner.Fresh) {source : Source}
    (hplain : source.Plain) :
    ReadsSoundly (scanner.readings {} source) (scanner.next source) :=
  readsSoundly_continueStatement hplain ⟨h.nests, fun _ => h.openings⟩

theorem ReadsSoundly.fresh {readings : List Reading} {scan : Scan} (h : ReadsSoundly readings scan)
    {statement : Statement} (hresult : scan.result = .statement statement) :
    scan.scanner.Fresh := by
  obtain ⟨hnests, hopenings, -⟩ := h.statement statement hresult
  exact ⟨hnests.restart hopenings, hopenings⟩

theorem ReadsSoundly.unclosed_eq_nil {readings : List Reading} {scan : Scan}
    (h : ReadsSoundly readings scan) {statement : Statement}
    (hresult : scan.result = .statement statement) : unclosed statement.tokens = [] := by
  obtain ⟨hnests, hopenings, -⟩ := h.statement statement hresult
  have hquote : scan.scanner.inQuote = false := by rw [inQuote, hopenings]
  have hopened := hnests.openings_of_not_inQuote hquote
  rw [hopenings, opened_eq_reverse_unclosed] at hopened
  simpa using hopened.symm

theorem Proceeds.fresh {source rest : Source} {scanner : Scanner}
    (h : Proceeds source scanner rest) (hplain : source.Plain) : scanner.Fresh ∧ rest.Plain := by
  induction h with
  | start => exact ⟨fresh_new, hplain⟩
  | next _ hresult ih =>
      obtain ⟨hfresh, hrest⟩ := ih
      have hreads := hfresh.readsSoundly hrest
      exact ⟨hreads.fresh hresult, hreads.plain⟩

end Scanner

end LineScript
