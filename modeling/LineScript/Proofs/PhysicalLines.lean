import LineScript.Command.Interpreter
import LineScript.Proofs.SharedLines

/-!
The number of the line that a failure shows. The scanner counts the lines that it reads. Where a
program takes its input from its own source, lines go by that the scanner does not see, and the
number falls behind the place of the line in the source by as many as have been read as input before
it.
-/

namespace LineScript

namespace Delivery

def isEntered : Delivery → Bool
  | scanned _ => false
  | entered _ => true

theorem length_scanned?_add (deliveries : List Delivery) :
    (deliveries.filterMap scanned?).length + deliveries.countP isEntered = deliveries.length := by
  induction deliveries with
  | nil => rfl
  | cons delivery deliveries ih =>
      rcases delivery with line | line
      · have hkept : scanned? (scanned line) = some line := rfl
        rw [List.filterMap_cons_some hkept, List.countP_cons_of_neg Bool.false_ne_true,
          List.length_cons, List.length_cons]
        omega
      · rw [List.filterMap_cons_none rfl, List.countP_cons_of_pos rfl, List.length_cons]
        omega

/-- The place of a line that the scanner has read among all deliveries. -/
theorem exists_append_of_scanned? {deliveries : List Delivery} {position : Nat} {raw : Bytes}
    (h : (deliveries.filterMap scanned?)[position]? = some raw) :
    ∃ before later, deliveries = before ++ scanned raw :: later ∧
      (before.filterMap scanned?).length = position := by
  induction deliveries generalizing position with
  | nil => cases h
  | cons delivery deliveries ih =>
      rcases delivery with line | line
      · rcases position with _ | position
        · cases h
          exact ⟨[], deliveries, rfl, rfl⟩
        · obtain ⟨before, later, rfl, hbefore⟩ := ih h
          exact ⟨scanned line :: before, later, rfl, congrArg (· + 1) hbefore⟩
      · obtain ⟨before, later, rfl, hbefore⟩ := ih h
        exact ⟨entered line :: before, later, rfl, hbefore⟩

end Delivery

theorem Failure.place_of_source {file : Bytes} {failed : Option Statement} {failure : Failure}
    (h : (failure.place file failed).source ≠ []) :
    ∃ statement, ∃ i : Nat, failed = some statement ∧
      statement.source[i]? = some (failure.place file failed).source ∧
      (failure.place file failed).line = statement.number + i := by
  rcases failed with _ | statement
  · exact absurd rfl h
  · have hfirst : statement.source.headD [] ≠ [] →
        statement.source[0]? = some (statement.source.headD []) := by
      intro hhead
      cases hsource : statement.source with
      | nil => simp [hsource] at hhead
      | cons first rest => rfl
    unfold place at h ⊢
    dsimp only at h ⊢
    split at h
    · exact ⟨statement, 0, rfl, hfirst h, (Int.add_zero _).symm⟩
    · next token _ =>
        split at h
        · exact ⟨statement, 0, rfl, hfirst h, (Int.add_zero _).symm⟩
        · next source hsource =>
            obtain ⟨i, htext, hline⟩ := Statement.exists_of_sourceLine? hsource
            exact ⟨statement, i, rfl, htext, hline⟩

namespace Machine

variable {config : Config} {machine halted : Machine} {location : Location} {failure : Failure}

/-- A step that halts and shows a line shows one that has been scanned by then. -/
theorem Faithful.shows_scanned {lines : List Bytes} (h : machine.Faithful lines)
    (hindex : machine.index ≤ machine.statements.size)
    (hstep : machine.step config = .halt halted (some (.located location failure)))
    (hsource : location.source ≠ []) :
    ∃ position : Nat, location.line = position + 1 ∧
      (lines ++ machine.scannedLines.map Scanner.trimBreak)[position]? = some location.source := by
  have hplace : ∀ {failed : Option Statement} {cause : Failure},
      location = cause.place config.file failed →
      (∀ statement, failed = some statement →
        statement.Faithful (lines ++ machine.scannedLines.map Scanner.trimBreak)) →
      ∃ position : Nat, location.line = position + 1 ∧
        (lines ++ machine.scannedLines.map Scanner.trimBreak)[position]? =
          some location.source := by
    rintro failed cause rfl hfaithful
    obtain ⟨statement, i, hfailed, htext, hline⟩ := Failure.place_of_source hsource
    obtain ⟨position, hposition, hfound⟩ := (hfaithful statement hfailed).getElem?_source htext
    exact ⟨position, hline.trans (by omega), hfound⟩
  have hperformed : ∀ {ready : Machine} {statement : Statement},
      machine.Obtains ready statement →
      statement.Faithful (lines ++ machine.scannedLines.map Scanner.trimBreak) →
      ∃ position : Nat, location.line = position + 1 ∧
        (lines ++ machine.scannedLines.map Scanner.trimBreak)[position]? =
          some location.source := by
    intro ready statement hobtains hfaithful
    rw [hobtains.step_eq] at hstep
    obtain ⟨reached, cause, hblames, hfail⟩ := fail_of_perform hstep
    refine hplace (fail_eq_located hblames.root hfail).2 ?_
    rintro _ ⟨⟩
    exact hfaithful
  have hscanned : ∀ statement ∈ machine.statements.toList,
      statement.Faithful (lines ++ machine.scannedLines.map Scanner.trimBreak) :=
    fun statement hmem => (h.statement statement hmem).append _
  rcases machine.step_cases config hindex with
    ⟨statement, hcurrent, -, -⟩ | ⟨hend, ⟨-, -, hended⟩ | ⟨part, cause, hscan, -, hfailed⟩ |
      ⟨statement, hscan, -, -⟩⟩
  · apply hperformed (.known hcurrent)
    exact hscanned statement (Array.mem_toList_iff.mpr (Array.mem_of_getElem? hcurrent))
  · -- The label that was looked for is missed at the last statement scanned.
    rw [hended, unfinished] at hstep
    obtain ⟨-, hunfinished⟩ := Step.halt.inj hstep
    obtain ⟨name, -, hlocated⟩ := Option.map_eq_some_iff.mp hunfinished
    refine hplace (Failure.located.inj hlocated).1.symm ?_
    intro statement hlast
    exact hscanned statement (Array.mem_toList_iff.mpr (Array.mem_of_back? hlast))
  · rw [hfailed] at hstep
    have hcontinues := h.continues hend
    refine hplace (fail_eq_located (hcontinues.blames part cause hscan).root hstep).2 ?_
    rintro _ ⟨⟩
    exact hcontinues.faithful part (congrArg Scanner.Result.part? hscan)
  · apply hperformed (.scanned hend hscan)
    exact (h.continues hend).faithful statement (congrArg Scanner.Result.part? hscan)

theorem Supplied.shows {raws : List Bytes} {deliveries : List Delivery}
    (h : machine.Supplied raws deliveries) (hindex : machine.index ≤ machine.statements.size)
    (hstep : machine.step config = .halt halted (some (.located location failure)))
    (hsource : location.source ≠ []) :
    ∃ before raw later, deliveries ++ machine.deliveries config = before ++ .scanned raw :: later ∧
      raws[before.length]? = some raw ∧ IsTrimmed raw location.source ∧
      location.line + before.countP Delivery.isEntered = before.length + 1 := by
  obtain ⟨position, hline, hfound⟩ := h.faithful.shows_scanned hindex hstep hsource
  rw [← List.map_append, ← scanned?_deliveries config machine, ← List.filterMap_append,
    List.getElem?_map, Option.map_eq_some_iff] at hfound
  obtain ⟨raw, hraw, htrimmed⟩ := hfound
  obtain ⟨before, later, hsplit, hposition⟩ := Delivery.exists_append_of_scanned? hraw
  obtain ⟨rest, hraws, -⟩ := (h.step hindex config).shares
  refine ⟨before, raw, later, hsplit, ?_, ?_, ?_⟩
  · rw [hraws, hsplit, List.map_append, List.map_cons, List.append_assoc,
      List.getElem?_append_right (by simp)]
    simp [Delivery.line]
  · rw [← htrimmed]
    exact Scanner.isTrimmed_trimBreak raw
  · have hlength := Delivery.length_scanned?_add before
    omega

end Machine

namespace Stage

/-- The line that a failure shows stands in the source of a program and of its input at a place that
is its number and the number of lines read as input before it: the number is that of the line in the
source exactly when no line above it has been read as input. -/
theorem located_line {config : Config} {streams : Streams} {color : Bool} {text : Bytes}
    {scanned : List Statement} {session after : Session} {limit : Nat} {location : Location}
    {failure : Failure}
    (hprogram : streams.program = .ofBytes text) (hinput : streams.input = none)
    (hreaches : Reaches (idle (Session.new config streams color)) scanned (idle session))
    (hrun : session.run limit = some (after, some (.located location failure)))
    (hsource : location.source ≠ []) :
    ∃ before raw later,
      Delivers (idle (Session.new config streams color)) (before ++ .scanned raw :: later)
        (idle after) ∧
      (Source.splitLines text)[before.length]? = some raw ∧ IsTrimmed raw location.source ∧
      location.line + before.countP Delivery.isEntered = before.length + 1 := by
  obtain ⟨halted, cause, hsteps, hfinish⟩ := Session.steps_of_run hrun
  obtain rfl := Session.eq_of_finish_located hfinish
  have hconsistent := consistent_new config streams color
  obtain ⟨count, machine, scanned, hcount, hstep, hmachine⟩ :=
    (hreaches.tail (.start session)).last_step hsteps
  obtain ⟨deliveries, hdelivers⟩ := hmachine.delivers
  have hsupplied := hdelivers.supplied hconsistent (supplied_new config color hprogram hinput)
  have hindex := (hmachine.preserves hconsistent).1.index_le
  obtain ⟨before, raw, later, hsplit, hshown⟩ := hsupplied.shows hindex hstep hsource
  have hended := hdelivers.tail (.halt hstep)
  rw [hfinish] at hended
  refine ⟨before, raw, later, ?_, hshown⟩
  rw [← hsplit]
  exact hended

def answered : Bytes :=
  utf8 "Txt x : (in)\nhello\n(nope)\n"

theorem run_answered : ∃ after failure,
    (Command.stdinSession answered false false).run 2 =
      some (after, some (.located ⟨utf8 "<stdin>", 2, utf8 "(nope)", 2⟩ failure)) := by
  have hfailed : ((Command.stdinSession answered false false).run 2).map Prod.snd =
      some (some (.located ⟨utf8 "<stdin>", 2, utf8 "(nope)", 2⟩
        (.runtime (Token.ofWord (utf8 "nope") 2 2) (.unknownFunction (utf8 "nope"))))) := by
    decide +kernel
  obtain ⟨⟨after, returned⟩, hrun, rfl⟩ := Option.map_eq_some_iff.mp hfailed
  exact ⟨after, _, hrun⟩

theorem located_line_answered :
    ∃ after before raw later,
      Delivers (idle (Command.stdinSession answered false false)) (before ++ .scanned raw :: later)
        (idle after) ∧
      (Source.splitLines answered)[before.length]? = some raw ∧ IsTrimmed raw (utf8 "(nope)") ∧
      2 + before.countP Delivery.isEntered = before.length + 1 := by
  obtain ⟨after, failure, hrun⟩ := run_answered
  obtain ⟨before, raw, later, hdelivers, hraw, htrimmed, hline⟩ :=
    located_line rfl rfl .refl hrun (by decide)
  refine ⟨after, before, raw, later, hdelivers, hraw, htrimmed, ?_⟩
  change (2 : Int) + _ = _ at hline
  omega

/-- The number that is shown is not that of the line in the source. -/
theorem located_line_behind :
    ∃ after location failure,
      (Command.stdinSession answered false false).run 2 =
        some (after, some (.located location failure)) ∧ location.source ≠ [] ∧
      ¬ ∃ raw, (Source.splitLines answered)[(location.line - 1).toNat]? = some raw ∧
        IsTrimmed raw location.source := by
  obtain ⟨after, failure, hrun⟩ := run_answered
  refine ⟨after, _, failure, hrun, by decide, ?_⟩
  rintro ⟨raw, hraw, ending, htext, -⟩
  have hsecond : (Source.splitLines answered)[(2 - 1 : Int).toNat]? = some (utf8 "hello\n") := by
    decide +kernel
  cases hraw.symm.trans hsecond
  cases congrArg List.head? htext

end Stage

end LineScript
