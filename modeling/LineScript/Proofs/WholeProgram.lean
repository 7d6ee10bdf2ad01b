import LineScript.Proofs.WholeMachine

namespace LineScript

namespace Machine

variable {config : Config} {machine : Machine} {whole : WholeMachine}

theorem Agree.of_next {step : Step} (h : Agree step (.next whole)) :
    ∃ machine, step = .next machine ∧ machine.Matches whole := by
  cases h with
  | next hmatches => exact ⟨_, rfl, hmatches⟩

theorem Agree.of_halt {step : Step} {failure : Option Failure}
    (h : Agree step (.halt whole failure)) :
    ∃ machine, step = .halt machine failure ∧
      Agree (.halt machine failure) (.halt whole failure) := by
  cases h with
  | halt hvisible hlabels => exact ⟨_, rfl, .halt hvisible hlabels⟩

/-- Whatever the machine that knows the whole program does in so many steps, the other one does too,
in no fewer steps. -/
theorem Matches.agree_steps (h : machine.Matches whole) (config : Config) (count : Nat) :
    ∃ total, Agree (machine.steps config total) (whole.steps config count) ∧
      machine.history config total = whole.history config count ∧
      ∀ reached, whole.steps config count = .next reached → count ≤ total := by
  induction count generalizing machine whole with
  | zero => exact ⟨0, .next h, rfl, fun _ _ => Nat.le_refl 0⟩
  | succ count ih =>
      obtain ⟨first, hagree, hhistory⟩ := h.agree_step config
      rw [WholeMachine.steps, WholeMachine.history]
      cases hstep : whole.step config with
      | next reached =>
          rw [hstep] at hagree
          obtain ⟨middle, hsteps, hmatches⟩ := hagree.of_next
          obtain ⟨rest, hrest, hmore, hle⟩ := ih hmatches
          refine ⟨first + 1 + rest, ?_, ?_, ?_⟩
          · rw [steps_add hsteps]
            exact hrest
          · rw [history_add hsteps, hhistory, hmore]
          · intro reached hreached
            have hrest := hle reached hreached
            omega
      | halt reached failure =>
          rw [hstep] at hagree
          refine ⟨first + 1, hagree, ?_, ?_⟩
          · rw [hhistory, List.append_nil]
          · intro last hlast
            cases hlast

theorem steps_of_halt {halted : Machine} {failure : Option Failure} {count total : Nat}
    (h : machine.steps config count = .halt halted failure) (hle : count ≤ total) :
    machine.steps config total = .halt halted failure ∧
      machine.history config total = machine.history config count := by
  induction count generalizing machine total with
  | zero => cases h
  | succ count ih =>
      obtain ⟨total, rfl⟩ : ∃ rest, total = rest + 1 := ⟨total - 1, by omega⟩
      rw [steps] at h ⊢
      rw [history, history]
      cases hstep : machine.step config with
      | next reached =>
          rw [hstep] at h
          obtain ⟨hsteps, hhistory⟩ := ih h (Nat.le_of_succ_le_succ hle)
          exact ⟨hsteps, congrArg _ hhistory⟩
      | halt reached failure =>
          rw [hstep] at h
          exact ⟨h, rfl⟩

theorem history_prefix {count total : Nat} (hle : count ≤ total) :
    machine.history config count <+: machine.history config total := by
  induction count generalizing machine total with
  | zero => exact List.nil_prefix
  | succ count ih =>
      obtain ⟨total, rfl⟩ : ∃ rest, total = rest + 1 := ⟨total - 1, by omega⟩
      rw [history, history, List.prefix_append_right_inj]
      split
      · exact ih (Nat.le_of_succ_le_succ hle)
      · exact List.prefix_refl []

end Machine

theorem prefix_toList_append {visits later : List Visit} {visit : Option Visit}
    (h : visits <+: visit.toList ++ later) :
    visits = [] ∨ ∃ more, visits = visit.toList ++ more ∧ more <+: later := by
  cases visit with
  | none => exact .inr ⟨visits, rfl, h⟩
  | some visit =>
      cases visits with
      | nil => exact .inl rfl
      | cons first more =>
          obtain ⟨rfl, hprefix⟩ := List.cons_prefix_cons.mp h
          exact .inr ⟨more, rfl, hprefix⟩

/-- Step by step the history grows by one line at most. -/
theorem WholeMachine.exists_history_of_prefix {config : Config} {whole : WholeMachine}
    {visits : List Visit} {count : Nat} (h : visits <+: whole.history config count) :
    ∃ fewer, visits = whole.history config fewer := by
  induction count generalizing whole visits with
  | zero => exact ⟨0, List.prefix_nil.mp h⟩
  | succ count ih =>
      rw [history] at h
      rcases prefix_toList_append h with rfl | ⟨more, rfl, hprefix⟩
      · exact ⟨0, rfl⟩
      · cases hstep : whole.step config with
        | next reached =>
            rw [hstep] at hprefix
            obtain ⟨fewer, rfl⟩ := ih hprefix
            refine ⟨fewer + 1, ?_⟩
            rw [history, hstep]
        | halt reached failure =>
            rw [hstep] at hprefix
            obtain rfl := List.prefix_nil.mp hprefix
            refine ⟨1, ?_⟩
            rw [history, hstep]

namespace Machine

variable {config : Config} {machine : Machine} {whole : WholeMachine}

/-- The machine executes no line that the one that knows the whole program does not. -/
theorem Matches.exists_history_eq (h : machine.Matches whole) (config : Config) (count : Nat) :
    ∃ fewer, machine.history config count = whole.history config fewer := by
  obtain ⟨total, hagree, hhistory, hle⟩ := h.agree_steps config count
  apply WholeMachine.exists_history_of_prefix
  rw [← hhistory]
  -- After its steps the machine has taken at least as many as asked for, or it has halted.
  cases hsteps : whole.steps config count with
  | next reached => exact history_prefix (hle reached hsteps)
  | halt reached failure =>
      rw [hsteps] at hagree
      obtain ⟨halted, hhalt, -⟩ := hagree.of_halt
      rcases Nat.le_total count total with hfewer | hmore
      · exact history_prefix hfewer
      · have hequal := (steps_of_halt hhalt hmore).2
        exact ⟨[], (List.append_nil _).trans hequal⟩

theorem Matches.agree_of_halt (h : machine.Matches whole) {count : Nat} {halted : Machine}
    {failure : Option Failure} (hhalt : machine.steps config count = .halt halted failure) :
    ∃ reached, whole.steps config count = .halt reached failure ∧
      Agree (.halt halted failure) (.halt reached failure) ∧
      machine.history config count = whole.history config count := by
  obtain ⟨total, hagree, hhistory, hle⟩ := h.agree_steps config count
  cases hsteps : whole.steps config count with
  | next reached =>
      rw [hsteps, (steps_of_halt hhalt (hle reached hsteps)).1] at hagree
      cases hagree
  | halt reached cause =>
      rw [hsteps] at hagree
      obtain ⟨other, hother, hsame⟩ := hagree.of_halt
      -- The machine halts once, and stays as it is however many steps more are asked for.
      rcases Nat.le_total count total with hfewer | hmore
      · obtain ⟨hlater, hequal⟩ := steps_of_halt hhalt hfewer
        rw [hother] at hlater
        cases hlater
        exact ⟨reached, rfl, hsame, hequal.symm.trans hhistory⟩
      · obtain ⟨hlater, hequal⟩ := steps_of_halt hother hmore
        rw [hhalt] at hlater
        cases hlater
        exact ⟨reached, rfl, hsame, hequal.trans hhistory⟩

end Machine

namespace Scanner

theorem openings_of_ended {scanner : Scanner} {begun : Statement} {source : Source}
    (h : (scanner.continueStatement begun source).result = .ended) :
    (scanner.continueStatement begun source).scanner.openings = [] := by
  have hatEnd : ∀ (scanner : Scanner) (begun : Statement),
      scanner.atEnd begun = .ended → scanner.openings = [] := by
    intro scanner begun hended
    rw [atEnd] at hended
    split at hended
    · next hopenings => exact hopenings
    · cases hended
  induction source generalizing scanner begun with
  | nil => exact hatEnd scanner begun h
  | cons answer source ih =>
      cases answer with
      | ended => exact hatEnd scanner begun h
      | failed reason => cases h
      | line raw =>
          rw [continueStatement] at h ⊢
          dsimp only at h ⊢
          split
          · next hopen =>
              rw [if_pos hopen] at h
              exact ih h
          · next hopen =>
              rw [if_neg hopen] at h
              split
              · next hempty =>
                  rw [if_pos hempty] at h
                  exact ih h
              · next htokens =>
                  rw [if_neg htokens] at h
                  cases h

/-- A source that has come to its end for good yields nothing more. -/
theorem scanAll_of_openings_nil {scanner : Scanner} {source : Source} (h : scanner.openings = [])
    (hsource : ∀ answer ∈ source, answer = .ended) :
    (scanner.scanAll source).1 = [] ∧ (scanner.scanAll source).2.result = .ended ∧
      ∀ answer ∈ (scanner.scanAll source).2.source, answer = .ended := by
  have hended : (scanner.next source).result = .ended ∧
      ∀ answer ∈ (scanner.next source).source, answer = .ended := by
    cases source with
    | nil =>
        refine ⟨?_, hsource⟩
        rw [next, continueStatement, atEnd, h]
    | cons answer rest =>
        obtain rfl := hsource answer List.mem_cons_self
        refine ⟨?_, fun answer hmem => hsource answer (List.mem_cons_of_mem _ hmem)⟩
        rw [next, continueStatement, atEnd, h]
  rw [scanAll_of_ended hended.1]
  exact ⟨rfl, hended⟩

end Scanner

namespace Machine

variable {config : Config} {machine : Machine} {lines : List Statement}

/-- A machine over a program whose source stays at its end. -/
structure Settled (machine : Machine) (lines : List Statement) : Prop extends
    machine.Covers lines where
  final : ∀ answer ∈ (machine.scanner.scanAll machine.context.streams.program).2.source,
    answer = .ended

theorem Settled.of_keeps {after : Machine} (h : machine.Settled lines)
    (hkeeps : machine.Keeps after) : after.Settled lines := by
  refine ⟨h.toCovers.of_keeps hkeeps, ?_⟩
  rw [hkeeps.scanner, (hkeeps.program h.input).2]
  exact h.final

theorem Settled.settled_step (h : machine.Settled lines) (hconsistent : machine.Consistent)
    (config : Config) : (machine.step config).machine.Settled lines := by
  have hlines := h.lines
  have hended := h.ended
  have hfinal := h.final
  rcases machine.step_cases config hconsistent.index_le with
    ⟨line, -, -, hstep⟩ | ⟨-, ⟨hresult, -, hstep⟩ | ⟨part, failure, hresult, -, -⟩ |
      ⟨line, hresult, -, hstep⟩⟩
  · rw [hstep]
    exact h.of_keeps (keeps_perform config machine line)
  · rw [Scanner.scanAll_of_ended hresult] at hlines hfinal
    obtain ⟨hnone, hstays, hsource⟩ :=
      Scanner.scanAll_of_openings_nil (Scanner.openings_of_ended hresult) hfinal
    rw [hstep]
    refine ⟨⟨h.input, ?_, hstays⟩, hsource⟩
    exact (congrArg (machine.statements.toList ++ ·) hnone).trans hlines
  · rw [Scanner.scanAll_of_failed hresult] at hended
    cases hresult.symm.trans hended
  · rw [Scanner.scanAll_of_statement hresult] at hlines hended hfinal
    have happended : (machine.append line).Settled lines := by
      refine ⟨⟨h.input, ?_, hended⟩, hfinal⟩
      rw [← hlines]
      show (machine.statements.push line).toList ++ _ = _
      rw [Array.toList_push, List.append_assoc]
      rfl
    rw [hstep]
    exact happended.of_keeps (keeps_perform config (machine.append line) line)

end Machine

theorem Stage.Reaches.settled {first last : Stage} {scanned lines : List Statement}
    (hreaches : Reaches first scanned last) (hconsistent : first.machine.Consistent)
    (h : first.machine.Settled lines) : last.machine.Settled lines := by
  induction hreaches with
  | refl => exact h
  | tail hmiddle hmove ih =>
      have hbefore := (hmiddle.preserves hconsistent).1
      cases hmove with
      | start session => exact ⟨⟨ih.input, ih.lines, ih.ended⟩, ih.final⟩
      | @next session machine hstep =>
          have hafter := ih.settled_step hbefore session.config
          rw [show Stage.machine (.running session) = session.machine from rfl, hstep] at hafter
          exact hafter
      | @halt session machine failure hstep =>
          have hafter := ih.settled_step hbefore session.config
          rw [show Stage.machine (.running session) = session.machine from rfl, hstep] at hafter
          obtain ⟨stderr, texts, reporter, hfinish⟩ :=
            Session.finish_eq { session with machine } failure
          simp only [Stage.machine, Stage.session, hfinish]
          exact ⟨⟨hafter.input, hafter.lines, hafter.ended⟩, hafter.final⟩

/-- The end of a run of the machine that knows the whole program. The labels are those that the dump
shows. -/
def WholeMachine.finish (whole : WholeMachine) (session : Session) (labels : Table Int)
    (failure : Option Failure) : Session × Option Failure :=
  let store := { whole.context.store with labels }
  { session with machine := { context := { whole.context with store } } }.finish failure

/-- A run that ended as the machine did that knows the whole program: it has the same failure, if
any, it has reported the same, and it shows the same. Only the labels in its dump are its own. -/
structure SameEnd (session after : Session) (failure : Option Failure) (whole : WholeMachine)
    (cause : Option Failure) : Prop where
  failure : failure = (whole.finish session whole.context.store.labels cause).2
  reporter : after.reporter =
    (whole.finish session after.machine.context.store.labels cause).1.reporter
  visible : after.machine.context.visible =
    (whole.finish session after.machine.context.store.labels cause).1.machine.context.visible

namespace Session

/-- The machine that knows the whole program, at the start of a run of the session. -/
def whole (session : Session) (lines : List Statement) : WholeMachine :=
  .start lines session.machine.start.context

def history (session : Session) (limit : Nat) : List Visit :=
  session.machine.start.history session.config limit

variable {machine : Machine} {whole : WholeMachine}

theorem finish_eq_whole (session : Session) (failure : Option Failure)
    (hvisible : machine.context.visible = whole.context.visible) :
    ({ session with machine }.finish failure).2 =
        (whole.finish session machine.context.store.labels failure).2 ∧
      ({ session with machine }.finish failure).1.visible =
        (whole.finish session machine.context.store.labels failure).1.visible := by
  have hsame : visible { session with machine } =
      visible { session with
        machine := { context :=
          { whole.context with
            store := { whole.context.store with labels := machine.context.store.labels } } } } := by
    have hvalues : machine.context.visible.store.values = whole.context.visible.store.values := by
      rw [hvisible]
    have hstreams : machine.context.visible.streams = whole.context.visible.streams := by
      rw [hvisible]
    show (⟨_, { context := ⟨⟨machine.context.visible.store.values, _⟩,
      machine.context.visible.streams⟩ }, _⟩ : Session) = _
    rw [hvalues, hstreams]
    rfl
  have hfinish := finish_visible { session with machine } failure
  rw [hsame, finish_visible] at hfinish
  obtain ⟨hshown, hfailure⟩ := Prod.mk.inj hfinish
  exact ⟨hfailure.symm, hshown.symm⟩

theorem sameEnd (session : Session) {failure : Option Failure}
    (h : Machine.Agree (.halt machine failure) (.halt whole failure)) :
    SameEnd session ({ session with machine }.finish failure).1
      ({ session with machine }.finish failure).2 whole failure := by
  cases h with
  | halt hvisible hlabels =>
      obtain ⟨hfailure, hshown⟩ := session.finish_eq_whole failure hvisible
      obtain ⟨stderr, texts, reporter, hfinish⟩ := finish_eq { session with machine } failure
      have hkept : ({ session with machine }.finish failure).1.machine.context.store.labels =
          machine.context.store.labels := by
        rw [hfinish]
        rfl
      refine ⟨?_, ?_, ?_⟩
      · cases failure with
        | none =>
            rw [← hlabels rfl]
            exact hfailure
        | some failure => rw [finish_some, WholeMachine.finish, finish_some]
      · have hreporter := congrArg Session.reporter hshown
        rw [hkept]
        exact hreporter
      · rw [hkept, ← context_visible, hshown, context_visible]

theorem run_eq {session : Session} {limit : Nat} {failure : Option Failure}
    (h : session.machine.start.steps session.config limit = .halt machine failure) :
    session.run limit = some ({ session with machine }.finish failure) := by
  rw [run, h]

theorem matches_whole {session : Session} {lines : List Statement}
    (hconsistent : session.machine.Consistent) (hcovers : session.machine.Covers lines)
    (hdistinct : (lines.filterMap Statement.label?).Nodup)
    (hnormal : session.machine.seeking = none) :
    session.machine.start.Matches (session.whole lines) where
  consistent := hconsistent.consistent_start
  covers := ⟨hcovers.input, hcovers.lines, hcovers.ended⟩
  distinct := hdistinct
  labels := rfl
  visible := rfl
  index := rfl
  seeking := by
    intro name hsought
    rw [show session.machine.start.seeking = none from hnormal] at hsought
    cases hsought

/-- Running a program line by line is running it as a whole. The source yields the lines and then
ends, for good if there have been runs before; no label is declared twice, and the input is not
taken from the source. Then every run that does not start in the middle of a search for a label
executes the same lines as the machine that knows all lines and labels, with the same to show at each
of them, and it ends if and only if that machine does, in the same way. -/
theorem run_agrees_whole {config : Config} {streams : Streams} {color : Bool}
    {scanned lines : List Statement} {session : Session} {last : Scan}
    (hreaches : Stage.Reaches (.idle (Session.new config streams color)) scanned (.idle session))
    (hscan : Scanner.scanAll {} streams.program = (lines, last)) (hended : last.result = .ended)
    (hsource : session = Session.new config streams color ∨ ∀ answer ∈ last.source, answer = .ended)
    (hdistinct : (lines.filterMap Statement.label?).Nodup) (hinput : streams.input.isSome)
    (hnormal : session.machine.seeking = none) :
    (∀ limit, ∃ count, session.history limit = (session.whole lines).history session.config count) ∧
    (∀ count, ∃ limit, (session.whole lines).history session.config count = session.history limit) ∧
    (∀ limit after failure, session.run limit = some (after, failure) →
      ∃ count whole cause, (session.whole lines).steps session.config count = .halt whole cause ∧
        session.history limit = (session.whole lines).history session.config count ∧
        SameEnd session after failure whole cause) ∧
    (∀ count whole cause, (session.whole lines).steps session.config count = .halt whole cause →
      ∃ limit after failure, session.run limit = some (after, failure) ∧
        session.history limit = (session.whole lines).history session.config count ∧
        SameEnd session after failure whole cause) := by
  have hnew : (Stage.idle (Session.new config streams color)).machine.Covers lines :=
    ⟨hinput, congrArg Prod.fst hscan, (congrArg (·.2.result) hscan).trans hended⟩
  have hcovers : session.machine.Covers lines := by
    rcases hsource with rfl | hfinal
    · exact hnew
    · have hsettled : (Stage.idle (Session.new config streams color)).machine.Settled lines := by
        refine ⟨hnew, ?_⟩
        show ∀ answer ∈ (Scanner.scanAll {} streams.program).2.source, answer = .ended
        rw [hscan]
        exact hfinal
      exact (hreaches.settled (Stage.consistent_new config streams color) hsettled).toCovers
  have hconsistent : session.machine.Consistent :=
    (hreaches.preserves (Stage.consistent_new config streams color)).1
  have hmatches := matches_whole hconsistent hcovers hdistinct hnormal
  refine ⟨?_, ?_, ?_, ?_⟩
  · intro limit
    exact hmatches.exists_history_eq session.config limit
  · intro count
    obtain ⟨limit, -, hhistory, -⟩ := hmatches.agree_steps session.config count
    exact ⟨limit, hhistory.symm⟩
  · intro limit after failure hrun
    obtain ⟨machine, cause, hsteps, hfinish⟩ := steps_of_run hrun
    obtain ⟨whole, hwhole, hagree, hhistory⟩ := hmatches.agree_of_halt hsteps
    have hend := session.sameEnd hagree
    rw [hfinish] at hend
    exact ⟨limit, whole, cause, hwhole, hhistory, hend⟩
  · intro count whole cause hsteps
    obtain ⟨limit, hagree, hhistory, -⟩ := hmatches.agree_steps session.config count
    rw [hsteps] at hagree
    obtain ⟨machine, hhalt, hsame⟩ := hagree.of_halt
    exact ⟨limit, _, _, run_eq hhalt, hhistory, session.sameEnd hsame⟩

/-- The second run of a program that goes to a label ahead finds the label among the lines scanned
by the first one. -/
theorem run_agrees_whole_passingOver :
    ∃ session : Session, session.machine.statements.size = 3 ∧
      ∀ limit, ∃ count, session.history limit =
        (session.whole (Scanner.scanAll {} Stage.passingOver.program).1).history session.config
          count := by
  have hrun : ((Session.new {} Stage.passingOver false).run 4).map (fun result =>
      (result.1.machine.statements.size, result.1.machine.seeking)) = some (3, none) := by
    decide +kernel
  have hscanned : (Scanner.scanAll {} Stage.passingOver.program).2.result = .ended ∧
      (Scanner.scanAll {} Stage.passingOver.program).2.source = [] ∧
      (Scanner.scanAll {} Stage.passingOver.program).1.filterMap Statement.label? =
        [utf8 "a", utf8 "b"] := by
    decide +kernel
  obtain ⟨hended, hsource, hlabels⟩ := hscanned
  obtain ⟨⟨session, failure⟩, hresult, hknown⟩ := Option.map_eq_some_iff.mp hrun
  obtain ⟨hsize, hnormal⟩ := Prod.mk.inj hknown
  obtain ⟨scanned, hreaches⟩ := Stage.Reaches.refl.of_run hresult
  have hfinal : ∀ answer ∈ (Scanner.scanAll {} Stage.passingOver.program).2.source,
      answer = .ended := by
    intro answer hmem
    rw [hsource] at hmem
    cases hmem
  have hdistinct : ((Scanner.scanAll {} Stage.passingOver.program).1.filterMap
      Statement.label?).Nodup := by
    rw [hlabels]
    decide
  refine ⟨session, hsize, ?_⟩
  exact (run_agrees_whole hreaches rfl hended (.inr hfinal) hdistinct rfl hnormal).1

end Session

end LineScript
