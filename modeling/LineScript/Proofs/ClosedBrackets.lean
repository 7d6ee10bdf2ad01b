import LineScript.Proofs.Readings
import LineScript.Proofs.RunFailures
import LineScript.Proofs.TypedStore

namespace LineScript

open Expression

theorem Source.read_suffix (source : Source) : source.read.2 <:+ source := by
  cases source with
  | nil => exact List.suffix_rfl
  | cons answer rest => exact List.suffix_cons answer rest

/-- Whatever is executed, lines of the program are taken from its front only. -/
theorem stable_suffix (source : Source) :
    Stable fun context => context.streams.program <:+ source where
  setValue h _ _ := h
  readInput := by
    intro context h
    rw [Streams.readInput]
    split
    · exact h
    · exact (Source.read_suffix _).trans h
  writeOut := by
    intro context h text
    rw [Streams.writeOut]
    split <;> exact h
  writeErr := by
    intro context h text
    rw [Streams.writeErr]
    split <;> exact h

namespace Machine

variable {machine : Machine} {statement : Statement}

theorem program_perform (config : Config) (machine : Machine) (statement : Statement) :
    (machine.perform config statement).machine.context.streams.program <:+
      machine.context.streams.program := by
  cases hlabel : statement.label? with
  | some name =>
      rw [perform_label hlabel, declareLabel]
      split
      · simp only [fail_machine, List.suffix_rfl]
      · exact List.suffix_rfl
  | none =>
      cases hseeking : machine.seeking with
      | some name =>
          rw [perform_passed hlabel hseeking]
          exact List.suffix_rfl
      | none =>
          rw [context_perform config hlabel hseeking]
          exact (stable_suffix _).execute List.suffix_rfl config statement

/-- A machine with a program without backslashes. Its scanner is between two statements unless the
program has ended, and every statement scanned has closed its brackets. -/
structure Closed (machine : Machine) : Prop where
  plain : machine.context.streams.program.Plain
  scanner : machine.scanner.Fresh ∨ machine.context.streams.program = []
  statements : ∀ statement ∈ machine.statements.toList, unclosed statement.tokens = []

theorem Closed.perform (h : machine.Closed) (config : Config) (statement : Statement) :
    (machine.perform config statement).machine.Closed := by
  have hkeeps := keeps_perform config machine statement
  have hprogram := program_perform config machine statement
  refine ⟨h.plain.of_suffix hprogram, ?_, ?_⟩
  · rw [hkeeps.scanner]
    -- Input may be read from the program as well, so that a program at its end stays there.
    rcases h.scanner with hfresh | hempty
    · exact .inl hfresh
    · rw [hempty] at hprogram
      exact .inr (List.suffix_nil.mp hprogram)
  · rw [hkeeps.statements]
    exact h.statements

structure ClosedScan (scan : Scan) : Prop where
  plain : scan.source.Plain
  scanner : scan.scanner.Fresh ∨ scan.source = []
  statement : ∀ statement, scan.result = .statement statement → unclosed statement.tokens = []
  failed : ∀ part failure, scan.result = .failed part failure →
    ∃ opening : Opening, failure = opening.unclosed

theorem Closed.scan (h : machine.Closed) : ClosedScan machine.scan := by
  rcases h.scanner with hfresh | hempty
  · have hreads : Scanner.ReadsSoundly _ machine.scan := hfresh.readsSoundly h.plain
    refine ⟨hreads.plain, ?_, fun statement => hreads.unclosed_eq_nil, ?_⟩
    · cases hresult : machine.scan.result with
      | statement statement => exact .inl (hreads.fresh hresult)
      | ended => exact .inr (hreads.ended (by simp [hresult])).1
      | failed part failure => exact .inr (hreads.ended (by simp [hresult])).1
    · intro part failure hresult
      obtain ⟨-, last, -, hlast⟩ := hreads.ended (by simp [hresult])
      exact Scanner.eq_unclosed_of_atEnd (hlast.symm.trans hresult)
  · rw [Machine.scan, hempty]
    refine ⟨fun _ hmem => absurd hmem List.not_mem_nil, .inr rfl, ?_, ?_⟩
    · intro statement hresult
      exact absurd hresult (Scanner.atEnd_ne_statement _ _ statement)
    · intro part failure hresult
      exact Scanner.eq_unclosed_of_atEnd hresult

theorem Closed.afterScan (h : machine.Closed) : (machine.afterScan machine.scan).Closed :=
  ⟨h.scan.plain, h.scan.scanner, h.statements⟩

theorem Closed.append (h : machine.Closed) (hscan : machine.scan.result = .statement statement) :
    (machine.append statement).Closed := by
  refine ⟨h.scan.plain, h.scan.scanner, ?_⟩
  rw [show (machine.append statement).statements.toList =
    machine.statements.toList ++ [statement] from Array.toList_push]
  simp only [List.mem_append, List.mem_singleton]
  rintro other (hmem | rfl)
  · exact h.statements other hmem
  · exact h.scan.statement other hscan

theorem Closed.obtains (h : machine.Closed) {ready : Machine}
    (hobtains : machine.Obtains ready statement) : unclosed statement.tokens = [] := by
  cases hobtains with
  | known hcurrent =>
      apply h.statements
      exact Array.mem_toList_iff.mpr (Array.mem_of_getElem? hcurrent)
  | scanned hend hscan => exact h.scan.statement statement hscan

theorem invariant_closed : Invariant Closed where
  start h := ⟨h.plain, h.scanner, h.statements⟩
  step := by
    intro machine hconsistent h config
    rcases machine.step_cases config hconsistent.index_le with
      ⟨statement, -, -, hstep⟩ | ⟨-, ⟨-, -, hstep⟩ | ⟨part, failure, -, -, hstep⟩ |
        ⟨statement, hscan, -, hstep⟩⟩
    · rw [hstep]
      exact h.perform config statement
    · rw [hstep]
      exact h.afterScan
    · rw [hstep, fail_machine]
      exact h.afterScan
    · rw [hstep]
      exact (h.append hscan).perform config statement
  withErrors h _ _ := ⟨h.plain, h.scanner, h.statements⟩

theorem Closed.ne_abruptEnd (h : machine.Closed) {failure : Failure}
    (hfails : machine.FailsWith failure) (token : Option Token) :
    failure ≠ .malformed token .abruptEnd := by
  cases hfails with
  | performed hobtains hfailure => exact hfailure.ne_abruptEnd (h.obtains hobtains) token
  | unscanned hscan =>
      obtain ⟨opening, rfl⟩ := h.scan.failed _ _ hscan
      simp [Opening.unclosed, Failure.root]
  | unfinished name => simp

end Machine

/-- Brackets of a source without backslashes. As long as every scan has yielded a statement, the next
one does the following:
* a statement that it yields has a closing bracket for each of its opening ones,
* at each read the depth is the number of brackets that the tokens read so far leave open, and one
  more where a text has not been finished; before the first line of a statement it is zero,
* without a statement the source has come to its end: between two statements if the depth is zero,
  and otherwise with a failure that names what was opened last and is still open.

No run of a program with such lines fails because an expression ends abruptly. -/
theorem brackets_closed {text : Bytes} (htext : '\\'.toUInt8 ∉ text) :
    (∀ (scanner : Scanner) (rest : Source), Scanner.Proceeds (Source.ofBytes text) scanner rest →
      (∀ statement, (scanner.next rest).result = .statement statement →
        ∀ i token, statement.tokens[i]? = some token → token.type = .functionStart →
          (closing? (statement.tokens.drop i)).isSome) ∧
      (scanner.next rest).depths = (scanner.readings {} rest).map (·.scanner.depth) ∧
      (∀ reading ∈ scanner.readings {} rest,
        reading.scanner.depth = (unclosed reading.begun.tokens).length +
          (if reading.scanner.literal?.isSome then 1 else 0) ∧
        (reading.begun.source = [] → reading.scanner.depth = 0)) ∧
      ((∀ statement, (scanner.next rest).result ≠ .statement statement) →
        (scanner.next rest).source = [] ∧
        ∃ last, (scanner.readings {} rest).getLast? = some last ∧
          (last.scanner.depth = 0 ∧ (scanner.next rest).result = .ended ∨
            0 < last.scanner.depth ∧ ∃ opener, last.openers.getLast? = some opener ∧
              (scanner.next rest).result = .failed last.begun (.malformed opener
                (.unclosed (Text.encode [last.awaited]) opener.lexeme opener.line))))) ∧
    ∀ (config : Config) (streams : Streams) (color : Bool) (scanned : List Statement)
      (session after : Session) (limit : Nat) (failure : Failure),
      streams.program = Source.ofBytes text →
      Stage.Reaches (.idle (Session.new config streams color)) scanned (.idle session) →
      session.run limit = some (after, some failure) →
      ∀ token, failure.root ≠ .malformed token .abruptEnd := by
  have hplain := Source.plain_ofBytes htext
  constructor
  · intro scanner rest hproceeds
    obtain ⟨hfresh, hrest⟩ := hproceeds.fresh hplain
    have hreads := hfresh.readsSoundly hrest
    refine ⟨?_, Scanner.depths_continueStatement scanner {} rest, ?_, ?_⟩
    · intro statement hresult
      exact unclosed_eq_nil_iff.mp (hreads.unclosed_eq_nil hresult)
    · intro reading hmem
      have hsound := hreads.sound reading hmem
      constructor
      · rw [hsound.depth_eq, Reading.openers, List.length_append, List.length_map]
        cases reading.scanner.literal? <;> rfl
      · intro hstart
        rw [Scanner.depth, hsound.start hstart]
        rfl
    · intro hresult
      obtain ⟨hsource, last, hlast, hend⟩ := hreads.ended hresult
      have hsound := hreads.sound last (List.mem_of_getLast? hlast)
      refine ⟨hsource, last, hlast, ?_⟩
      rw [hend, hsound.atEnd, hsound.depth_eq]
      cases hopener : last.openers.getLast? with
      | none =>
          left
          rw [List.getLast?_eq_none_iff.mp hopener]
          exact ⟨rfl, rfl⟩
      | some opener =>
          right
          exact ⟨List.length_pos_of_mem (List.mem_of_getLast? hopener), opener, rfl, rfl⟩
  · intro config streams color scanned session after limit failure hprogram hreaches hrun token
    have hnew : (Stage.idle (Session.new config streams color)).machine.Closed := by
      refine ⟨?_, .inl Scanner.fresh_new, fun _ hmem => absurd hmem List.not_mem_nil⟩
      show streams.program.Plain
      rw [hprogram]
      exact hplain
    rcases hreaches.run_fails Machine.invariant_closed hnew hrun with
      ⟨machine, -, hclosed, hfails⟩ | rfl | ⟨reason, rfl⟩
    · exact hclosed.ne_abruptEnd hfails token
    · simp [Failure.root]
    · simp [Failure.root]

/-- A call over three lines, with brackets in a text and in a comment, and one that stays open. -/
def leftOpen : Bytes :=
  utf8 "(cat \"a)\n(\" # )\n1)\n(+ 1\n"

theorem brackets_closed_leftOpen :
    let first := Scanner.next {} (Source.ofBytes leftOpen)
    let second := first.scanner.next first.source
    (∃ statement, first.result = .statement statement ∧ statement.tokens.length = 5 ∧
      (closing? statement.tokens).isSome ∧ first.depths = [0, 2, 1]) ∧
    (∃ last opener, (first.scanner.readings {} first.source).getLast? = some last ∧
      last.openers.getLast? = some opener ∧ opener.line = 4 ∧
      second.result = .failed last.begun (.malformed opener
        (.unclosed (utf8 ")") opener.lexeme opener.line))) ∧
    ∃ after failure, (Session.new {} { program := Source.ofBytes leftOpen } false).run 2 =
      some (after, some failure) ∧ ∀ token, failure.root ≠ .malformed token .abruptEnd := by
  intro first second
  obtain ⟨hscans, hruns⟩ := @brackets_closed leftOpen (by decide +kernel)
  have hfirst : ∃ statement, first.result = .statement statement ∧
      statement.tokens.length = 5 ∧ statement.tokens[0]?.map Token.type = some .functionStart := by
    refine ⟨_, by rfl, ?_, ?_⟩ <;> decide +kernel
  obtain ⟨statement, hresult, hlength, htype⟩ := hfirst
  obtain ⟨token, htoken, hstart⟩ := Option.map_eq_some_iff.mp htype
  refine ⟨⟨statement, hresult, hlength, ?_, by decide +kernel⟩, ?_, ?_⟩
  · exact (hscans {} _ .start).1 statement hresult 0 token htoken hstart
  · have hnone : ∀ statement, second.result ≠ .statement statement := by
      have hfailed : ∃ part failure, second.result = .failed part failure := ⟨_, _, by rfl⟩
      obtain ⟨part, failure, hfailed⟩ := hfailed
      simp [hfailed]
    obtain ⟨-, last, hlast, hend⟩ := (hscans _ _ (.next .start hresult)).2.2.2 hnone
    have hknown : ((first.scanner.readings {} first.source).getLast?.map fun last =>
        (last.scanner.depth, last.awaited, last.openers.map Token.line)) = some (1, ')', [4]) := by
      decide +kernel
    rw [hlast, Option.map_some] at hknown
    obtain ⟨hdepth, hawaited, hlines⟩ : last.scanner.depth = 1 ∧ last.awaited = ')' ∧
        last.openers.map Token.line = [4] := by simpa using hknown
    rcases hend with ⟨hzero, -⟩ | ⟨-, opener, hopener, hfailed⟩
    · omega
    · refine ⟨last, opener, hlast, hopener, ?_, ?_⟩
      · have hmem := List.mem_map_of_mem (f := Token.line) (List.mem_of_getLast? hopener)
        simpa [hlines] using hmem
      · rw [hawaited] at hfailed
        exact hfailed
  · have hfailed : (((Session.new {} { program := Source.ofBytes leftOpen } false).run 2).bind
        Prod.snd).isSome := by
      decide +kernel
    obtain ⟨failure, hfailure⟩ := Option.isSome_iff_exists.mp hfailed
    obtain ⟨⟨after, _⟩, hrun, rfl⟩ := Option.bind_eq_some_iff.mp hfailure
    exact ⟨after, failure, hrun, hruns _ _ _ _ _ _ _ _ rfl .refl hrun⟩

end LineScript
