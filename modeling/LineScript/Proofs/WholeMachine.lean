import LineScript.Proofs.LineBuffer
import LineScript.Proofs.Visible

/-!
A machine that scans its statements when it reaches them does what a machine does that knows the
whole program from the start. The two differ in how they get to a label that lies ahead: the one
passes over statements until it finds the label, the other is there at once.
-/

namespace LineScript

/-- A machine that holds all lines of its program. Its store holds all their labels. -/
structure WholeMachine where
  lines : List Statement
  context : Context
  index : Nat := 0

/-- The execution of one line: the line, its index and what the program shows before it. -/
structure Visit where
  index : Nat
  line : Statement
  context : Context

/-- The visit of a line, unless the line is a label, at which nothing is executed. -/
def Visit.of? (index : Nat) (context : Context) (line : Statement) : Option Visit :=
  if line.label?.isSome then none else some ⟨index, line, context.visible⟩

namespace WholeMachine

inductive Step where
  | next (whole : WholeMachine)
  | halt (whole : WholeMachine) (failure : Option Failure)

/-- Knows the labels of all its lines and starts at the first of them. -/
def start (lines : List Statement) (context : Context) : WholeMachine where
  lines := lines
  context := { context with store := { context.store with labels := labelsFrom 0 lines } }

def fail (config : Config) (whole : WholeMachine) (line : Statement) (failure : Failure) : Step :=
  match failure.root with
  | .exit _ => .halt whole failure
  | _ => .halt whole (failure.locate config.file line)

def jump (config : Config) (whole : WholeMachine) (name : Bytes) : Step :=
  match whole.context.store.label? name with
  | some index => .next { whole with index := index.toNat }
  | none =>
      .halt whole
        (Failure.locate config.file whole.lines.getLast? (.runtime none (.labelNotFound name)))

def step (config : Config) (whole : WholeMachine) : Step :=
  match whole.lines[whole.index]? with
  | none => .halt whole none
  | some line =>
      match line.label? with
      | some _ => .next { whole with index := whole.index + 1 }
      | none =>
          match line.execute config whole.context with
          | (context, .error failure) => { whole with context }.fail config line failure
          | (context, .ok none) => .next { whole with context, index := whole.index + 1 }
          | (context, .ok (some name)) => { whole with context }.jump config name

def steps (config : Config) : Nat → WholeMachine → Step
  | 0, whole => .next whole
  | count + 1, whole =>
      match whole.step config with
      | .next whole => steps config count whole
      | .halt whole failure => .halt whole failure

def visit? (whole : WholeMachine) : Option Visit :=
  whole.lines[whole.index]?.bind (Visit.of? whole.index whole.context)

def history (config : Config) : Nat → WholeMachine → List Visit
  | 0, _ => []
  | count + 1, whole =>
      whole.visit?.toList ++
        match whole.step config with
        | .next whole => history config count whole
        | .halt .. => []

end WholeMachine

namespace Machine

def current? (machine : Machine) : Option Statement :=
  machine.statements[machine.index]?.or machine.scanned?

/-- The visit that the next step makes. Nothing is executed while a label is looked for. -/
def visit? (machine : Machine) : Option Visit :=
  match machine.seeking with
  | some _ => none
  | none => machine.current?.bind (Visit.of? machine.index machine.context)

def history (config : Config) : Nat → Machine → List Visit
  | 0, _ => []
  | count + 1, machine =>
      machine.visit?.toList ++
        match machine.step config with
        | .next machine => history config count machine
        | .halt .. => []

end Machine

namespace Scanner

variable {scanner : Scanner} {source : Source}

theorem scanAll_of_statement {statement : Statement}
    (h : (scanner.next source).result = .statement statement) :
    scanner.scanAll source =
      (statement :: ((scanner.next source).scanner.scanAll (scanner.next source).source).1,
        ((scanner.next source).scanner.scanAll (scanner.next source).source).2) := by
  rw [scanAll]
  split
  · next hresult =>
      rw [h] at hresult
      cases hresult
      rfl
  · next hresult => exact absurd h (hresult statement)

private theorem scanAll_of_result {result : Result} (h : (scanner.next source).result = result)
    (hend : ∀ statement, result ≠ .statement statement) :
    scanner.scanAll source = ([], scanner.next source) := by
  rw [scanAll]
  split
  · next statement hresult => exact absurd (h.symm.trans hresult) (hend statement)
  · rfl

theorem scanAll_of_ended (h : (scanner.next source).result = .ended) :
    scanner.scanAll source = ([], scanner.next source) := by
  refine scanAll_of_result h ?_
  intro statement hstatement
  cases hstatement

theorem scanAll_of_failed {part : Statement} {failure : Failure}
    (h : (scanner.next source).result = .failed part failure) :
    scanner.scanAll source = ([], scanner.next source) := by
  refine scanAll_of_result h ?_
  intro statement hstatement
  cases hstatement

end Scanner

namespace Machine

variable {config : Config} {machine : Machine} {lines : List Statement}

/-- What a machine has scanned and what it can still scan are the lines of a program, and its input
is not taken from them. -/
structure Covers (machine : Machine) (lines : List Statement) : Prop where
  input : machine.context.streams.input.isSome
  lines : machine.statements.toList ++
    (machine.scanner.scanAll machine.context.streams.program).1 = lines
  ended : (machine.scanner.scanAll machine.context.streams.program).2.result = .ended

theorem Covers.of_keeps {after : Machine} (h : machine.Covers lines)
    (hkeeps : machine.Keeps after) : after.Covers lines := by
  obtain ⟨hinput, hprogram⟩ := hkeeps.program h.input
  refine ⟨hinput, ?_, ?_⟩
  · rw [hkeeps.statements, hkeeps.scanner, hprogram]
    exact h.lines
  · rw [hkeeps.scanner, hprogram]
    exact h.ended

theorem visible_afterScan (scan : Scan) :
    (machine.afterScan scan).context.visible = machine.context.visible := by
  have hlog : ∀ log : List Event,
      (scan.depths.foldl (fun log depth => .read depth :: log) log).filter Event.isVisible =
        log.filter Event.isVisible := by
    induction scan.depths with
    | nil => exact fun _ => rfl
    | cons depth rest ih =>
        intro log
        rw [List.foldl_cons, ih]
        rfl
  rw [Context.visible, Context.visible, Streams.visible, Streams.visible]
  simp only [afterScan, hlog]

/-- A machine and the same machine right before it performs the line at its index. -/
structure Fetches (config : Config) (machine poised : Machine) (line : Statement) : Prop where
  current : machine.current? = some line
  step : machine.step config = poised.perform config line
  ready : poised.Poised line
  visible : poised.context.visible = machine.context.visible
  index : poised.index = machine.index
  seeking : poised.seeking = machine.seeking

/-- Every step performs the line at the index of the machine; behind the last line it halts. -/
theorem Covers.fetch (h : machine.Covers lines) (hconsistent : machine.Consistent)
    (config : Config) :
    (∃ line poised, lines[machine.index]? = some line ∧ Fetches config machine poised line ∧
      poised.Covers lines) ∨
    (lines[machine.index]? = none ∧ machine.current? = none ∧ machine.statements.toList = lines ∧
      machine.step config = .halt (machine.afterScan machine.scan)
        ((machine.afterScan machine.scan).unfinished config)) := by
  have hlines := h.lines
  rcases machine.step_cases config hconsistent.index_le with
    ⟨line, hcurrent, hscanned, hstep⟩ | ⟨hend, ⟨hresult, hscanned, hstep⟩ |
      ⟨part, failure, hresult, hscanned, hstep⟩ | ⟨line, hresult, hscanned, hstep⟩⟩
  · left
    refine ⟨line, machine, ?_, ⟨?_, hstep, hconsistent.poised hcurrent, rfl, rfl, rfl⟩, h⟩
    · have hlt := (Array.getElem?_eq_some_iff.mp hcurrent).1
      rw [← hlines, List.getElem?_append_left (by simpa using hlt), Array.getElem?_toList]
      exact hcurrent
    · rw [current?, hcurrent]
      rfl
  · right
    have hscan := Scanner.scanAll_of_ended hresult
    rw [hscan, List.append_nil] at hlines
    have hcurrent : machine.statements[machine.index]? = none :=
      Array.getElem?_eq_none_iff.mpr (Nat.le_of_eq hend.symm)
    refine ⟨?_, ?_, hlines, hstep⟩
    · rw [← hlines, Array.getElem?_toList]
      exact hcurrent
    · rw [current?, hcurrent, hscanned]
      rfl
  · -- The scan of the whole program would have failed as well.
    have hended := h.ended
    rw [Scanner.scanAll_of_failed hresult] at hended
    cases hresult.symm.trans hended
  · left
    have hscan := Scanner.scanAll_of_statement hresult
    have hcurrent : machine.statements[machine.index]? = none :=
      Array.getElem?_eq_none_iff.mpr (Nat.le_of_eq hend.symm)
    have hended := h.ended
    rw [hscan] at hlines hended
    refine ⟨line, machine.append line, ?_, ⟨?_, hstep, hconsistent.poised_append hend,
      visible_afterScan machine.scan, rfl, rfl⟩, h.input, ?_, hended⟩
    · rw [← hlines, hend, ← Array.length_toList, List.getElem?_append_right (Nat.le_refl _)]
      simp
    · rw [current?, hcurrent, hscanned]
      rfl
    · rw [← hlines]
      show (machine.statements.push line).toList ++ _ = _
      rw [Array.toList_push, List.append_assoc]
      rfl

/-- In a program that declares no label twice, declaring a label never fails. -/
theorem Poised.declareLabel_eq {line : Statement} {name : Bytes} (h : machine.Poised line)
    (config : Config) (hcovers : machine.Covers lines)
    (hdistinct : (lines.filterMap Statement.label?).Nodup) (hlabel : line.label? = some name) :
    ∃ labels, machine.declareLabel config line name =
      .next { machine with
        context := { machine.context with store := { machine.context.store with labels } }
        seeking := if machine.seeking = some name then none else machine.seeking
        index := machine.index + 1 } := by
  rw [declareLabel]
  split
  · next cause herror =>
      -- The label would be known by another statement, and the program would declare it twice.
      obtain ⟨old, hold, hne⟩ := label?_of_defineLabel_error herror
      have hdeclared : declaration? machine.statements.toList name = some machine.index := by
        rw [← hcovers.lines, List.filterMap_append] at hdistinct
        exact declaration?_eq_of_nodup (List.nodup_append.mp hdistinct).1 h.current_toList hlabel
      rcases h.label name with hknown | ⟨-, hmissing, -⟩
      · rw [hold, hdeclared] at hknown
        exact absurd (Option.some.inj hknown) hne
      · rw [hold] at hmissing
        cases hmissing
  · next store hdefined =>
      rw [defineLabel_eq hdefined]
      exact ⟨_, rfl⟩

/-- A machine that looks for a label and shows the given context. -/
structure Seeks (machine : Machine) (lines : List Statement) (name : Bytes) (shown : Context) :
    Prop where
  consistent : machine.Consistent
  covers : machine.Covers lines
  seeking : machine.seeking = some name
  visible : machine.context.visible = shown

namespace Seeks

variable {name : Bytes} {shown : Context}

theorem visit?_eq_none (h : machine.Seeks lines name shown) : machine.visit? = none := by
  rw [visit?, h.seeking]

theorem pass (h : machine.Seeks lines name shown)
    (hdistinct : (lines.filterMap Statement.label?).Nodup) (config : Config)
    {line : Statement} (hline : lines[machine.index]? = some line)
    (hother : line.label? ≠ some name) :
    ∃ passed, machine.step config = .next passed ∧ passed.Seeks lines name shown ∧
      passed.index = machine.index + 1 := by
  rcases h.covers.fetch h.consistent config with
    ⟨_, poised, hcurrent, hfetches, hcovers⟩ | ⟨hnone, -⟩
  · obtain rfl := Option.some.inj (hline.symm.trans hcurrent)
    have hconsistent := hfetches.ready.consistent_perform config
    have hperformed := hcovers.of_keeps (keeps_perform config poised line)
    have hseeking : poised.seeking = some name := hfetches.seeking.trans h.seeking
    have hvisible : poised.context.visible = shown := hfetches.visible.trans h.visible
    rw [hfetches.step]
    cases hlabel : line.label? with
    | none =>
        rw [perform_passed hlabel hseeking] at hconsistent hperformed ⊢
        exact ⟨poised.advance, rfl, ⟨hconsistent, hperformed, hseeking, hvisible⟩,
          congrArg (· + 1) hfetches.index⟩
    | some declared =>
        obtain ⟨labels, hdeclared⟩ :=
          hfetches.ready.declareLabel_eq config hcovers hdistinct hlabel
        have hne : name ≠ declared := by
          rintro rfl
          exact hother hlabel
        rw [perform_label hlabel, hdeclared] at hconsistent hperformed ⊢
        refine ⟨_, rfl, ⟨hconsistent, hperformed, ?_, hvisible⟩, congrArg (· + 1) hfetches.index⟩
        dsimp only
        rw [hseeking, if_neg (by simpa using hne)]
  · rw [hnone] at hline
    cases hline

theorem pass_many (h : machine.Seeks lines name shown)
    (hdistinct : (lines.filterMap Statement.label?).Nodup) (config : Config) (count : Nat)
    (hothers : ∀ passed < count, ∃ line, lines[machine.index + passed]? = some line ∧
      line.label? ≠ some name) :
    ∃ last, machine.steps config count = .next last ∧ machine.history config count = [] ∧
      last.Seeks lines name shown ∧ last.index = machine.index + count := by
  induction count generalizing machine with
  | zero => exact ⟨machine, rfl, rfl, h, rfl⟩
  | succ count ih =>
      obtain ⟨line, hline, hother⟩ := hothers 0 (Nat.zero_lt_succ count)
      obtain ⟨passed, hstep, hpassed, hindex⟩ := h.pass hdistinct config hline hother
      have hrest : ∀ later < count, ∃ line, lines[passed.index + later]? = some line ∧
          line.label? ≠ some name := by
        intro later hlt
        have heq : passed.index + later = machine.index + (later + 1) := by omega
        rw [heq]
        exact hothers (later + 1) (Nat.succ_lt_succ hlt)
      obtain ⟨last, hsteps, hhistory, hlast, hreached⟩ := ih hpassed hrest
      refine ⟨last, ?_, ?_, hlast, by omega⟩
      · rw [steps, hstep]
        exact hsteps
      · rw [history, h.visit?_eq_none, hstep]
        exact hhistory

theorem halt (h : machine.Seeks lines name shown) (config : Config)
    (hend : lines[machine.index]? = none) :
    ∃ last, machine.step config = .halt last
        (some (Failure.locate config.file lines.getLast? (.runtime none (.labelNotFound name)))) ∧
      last.context.visible = shown := by
  rcases h.covers.fetch h.consistent config with ⟨line, _, hline, -⟩ | ⟨-, -, hlines, hstep⟩
  · rw [hend] at hline
    cases hline
  · refine ⟨machine.afterScan machine.scan, ?_, (visible_afterScan machine.scan).trans h.visible⟩
    rw [hstep, unfinished]
    have hseeking : (machine.afterScan machine.scan).seeking = some name := h.seeking
    have hlast : (machine.afterScan machine.scan).statements.back? = lines.getLast? := by
      rw [← hlines, Array.getLast?_toList]
      rfl
    rw [hseeking, hlast]
    rfl

end Seeks

end Machine

theorem Statement.execute_congr (config : Config) (statement : Statement) {c d : Context}
    (hc : c.streams.input.isSome) (h : c.visible = d.visible) :
    (statement.execute config c).1.visible = (statement.execute config d).1.visible ∧
      (statement.execute config c).2 = (statement.execute config d).2 := by
  have hinput : c.visible.streams.input = d.visible.streams.input := by
    rw [h]
  have hd : d.streams.input.isSome := by
    rw [show d.streams.input = c.streams.input from hinput.symm]
    exact hc
  have hleft := statement.execute_visible config hc
  rw [h, statement.execute_visible config hd] at hleft
  obtain ⟨hvisible, hresult⟩ := Prod.mk.inj hleft
  exact ⟨hvisible.symm, hresult.symm⟩

namespace Machine

variable {config : Config} {machine : Machine} {whole : WholeMachine}

/-- A machine and the one that knows the whole program, at the same line with the same to show. A
machine that has just found the label it looked for learns so at that line. -/
structure Matches (machine : Machine) (whole : WholeMachine) : Prop where
  consistent : machine.Consistent
  covers : machine.Covers whole.lines
  distinct : (whole.lines.filterMap Statement.label?).Nodup
  labels : whole.context.store.labels = labelsFrom 0 whole.lines
  visible : machine.context.visible = whole.context.visible
  index : machine.index = whole.index
  seeking : ∀ name, machine.seeking = some name →
    ∃ line, whole.lines[whole.index]? = some line ∧ line.label? = some name

inductive Agree : Step → WholeMachine.Step → Prop
  | next {machine : Machine} {whole : WholeMachine} (hmatches : machine.Matches whole) :
      Agree (.next machine) (.next whole)
  | halt {machine : Machine} {whole : WholeMachine} {failure : Option Failure}
      (hvisible : machine.context.visible = whole.context.visible)
      (hlabels : failure = none → machine.context.store.labels = whole.context.store.labels) :
      Agree (.halt machine failure) (.halt whole failure)

theorem Agree.failed {failure : Failure}
    (hvisible : machine.context.visible = whole.context.visible) :
    Agree (.halt machine (some failure)) (.halt whole (some failure)) := by
  refine .halt hvisible ?_
  intro hnone
  cases hnone

theorem agree_fail {line : Statement} (failure : Failure)
    (hvisible : machine.context.visible = whole.context.visible) :
    Agree (machine.fail config line failure) (whole.fail config line failure) := by
  unfold fail WholeMachine.fail
  cases failure.root <;> exact .failed hvisible

theorem label?_whole (hlabels : whole.context.store.labels = labelsFrom 0 whole.lines)
    (name : Bytes) :
    whole.context.store.label? name = (declaration? whole.lines name).map Int.ofNat := by
  rw [Store.label?, hlabels, find?_labelsFrom]
  simp only [Nat.zero_add]

theorem Matches.labels_eq (h : machine.Matches whole)
    (hlines : machine.statements.toList = whole.lines) :
    machine.context.store.labels = whole.context.store.labels := by
  refine Table.eq_of_find?_eq h.consistent.ascending ?_ ?_
  · rw [h.labels]
    exact ascending_labelsFrom 0 whole.lines
  · intro name
    have hmachine := h.consistent.label name
    rw [hlines, ← label?_whole h.labels] at hmachine
    exact hmachine

theorem Matches.visit?_eq (h : machine.Matches whole)
    (hcurrent : machine.current? = whole.lines[whole.index]?) : machine.visit? = whole.visit? := by
  rw [visit?, WholeMachine.visit?, hcurrent]
  cases hseeking : machine.seeking with
  | none =>
      dsimp only
      congr 1
      funext line
      rw [Visit.of?, Visit.of?, h.index, h.visible]
  | some name =>
      obtain ⟨line, hline, hlabel⟩ := h.seeking name hseeking
      rw [hline]
      simp [Visit.of?, hlabel]

theorem Matches.seeking_eq_none (h : machine.Matches whole)
    (hlabel : ∀ line, whole.lines[whole.index]? = some line → line.label? = none) :
    machine.seeking = none := by
  cases hseeking : machine.seeking with
  | none => rfl
  | some name =>
      obtain ⟨line, hline, hdeclares⟩ := h.seeking name hseeking
      rw [hlabel line hline] at hdeclares
      cases hdeclares

theorem history_add {middle : Machine} {count : Nat}
    (h : machine.steps config count = .next middle) (more : Nat) :
    machine.history config (count + more) =
      machine.history config count ++ middle.history config more := by
  induction count generalizing machine with
  | zero =>
      cases h
      rw [Nat.zero_add]
      rfl
  | succ count ih =>
      rw [Nat.succ_add, history, history, List.append_assoc]
      rw [steps] at h
      cases hstep : machine.step config with
      | next reached =>
          rw [hstep] at h
          dsimp only
          rw [ih h]
      | halt reached failure =>
          rw [hstep] at h
          cases h

/-- A machine that looks for a label gets to where a jump to the label leads. -/
theorem Seeks.agree_jump {name : Bytes}
    (h : machine.Seeks whole.lines name whole.context.visible) (config : Config)
    (hdistinct : (whole.lines.filterMap Statement.label?).Nodup)
    (hlabels : whole.context.store.labels = labelsFrom 0 whole.lines)
    (hbound : machine.index ≤ whole.lines.length)
    (hahead : ∀ index, declaration? whole.lines name = some index → machine.index ≤ index) :
    ∃ count, Agree (machine.steps config count) (whole.jump config name) ∧
      machine.history config count = [] := by
  rw [WholeMachine.jump, label?_whole hlabels]
  cases hdeclared : declaration? whole.lines name with
  | some index =>
      have hle := hahead index hdeclared
      obtain ⟨⟨line, hline, hlabel⟩, hfirst⟩ := declaration?_eq_some_iff.mp hdeclared
      have hlt := (List.getElem?_eq_some_iff.mp hline).1
      have hothers : ∀ passed < index - machine.index, ∃ line,
          whole.lines[machine.index + passed]? = some line ∧ line.label? ≠ some name := by
        intro passed hpassed
        have hbefore : machine.index + passed < index := by omega
        have hother := List.getElem?_eq_getElem (Nat.lt_trans hbefore hlt)
        exact ⟨_, hother, hfirst _ hbefore _ hother⟩
      obtain ⟨last, hsteps, hhistory, hlast, hindex⟩ := h.pass_many hdistinct config _ hothers
      refine ⟨index - machine.index, ?_, hhistory⟩
      rw [hsteps]
      refine .next ⟨hlast.consistent, hlast.covers, hdistinct, hlabels, hlast.visible, ?_, ?_⟩
      · show last.index = index
        omega
      · intro sought hsought
        obtain rfl := Option.some.inj (hlast.seeking.symm.trans hsought)
        exact ⟨line, hline, hlabel⟩
  | none =>
      -- All lines that are left are passed over, and the next scan finds the end.
      have hundeclared := declaration?_eq_none_iff.mp hdeclared
      have hothers : ∀ passed < whole.lines.length - machine.index, ∃ line,
          whole.lines[machine.index + passed]? = some line ∧ line.label? ≠ some name := by
        intro passed hpassed
        have hlt : machine.index + passed < whole.lines.length := by omega
        exact ⟨_, List.getElem?_eq_getElem hlt, hundeclared _ (List.getElem_mem hlt)⟩
      obtain ⟨last, hsteps, hhistory, hlast, hindex⟩ := h.pass_many hdistinct config _ hothers
      have hend : whole.lines[last.index]? = none := by
        rw [List.getElem?_eq_none_iff]
        omega
      obtain ⟨halted, hstep, hvisible⟩ := hlast.halt config hend
      refine ⟨whole.lines.length - machine.index + 1, ?_, ?_⟩
      · rw [steps_add hsteps, steps, hstep]
        exact .failed hvisible
      · rw [history_add hsteps, hhistory, history, hlast.visit?_eq_none, hstep]
        rfl

structure AtLine (machine : Machine) (whole : WholeMachine) (line : Statement) : Prop where
  ready : machine.Poised line
  unlabelled : line.label? = none
  normal : machine.seeking = none
  covers : machine.Covers whole.lines
  distinct : (whole.lines.filterMap Statement.label?).Nodup
  labels : whole.context.store.labels = labelsFrom 0 whole.lines
  visible : machine.context.visible = whole.context.visible

/-- A jump goes to the same line: at once if the label is known, and otherwise by passing over the
lines before it. -/
theorem AtLine.agree_jump {line : Statement} (h : AtLine machine whole line) (config : Config)
    (name : Bytes) :
    ∃ landed count, machine.jump config line name = .next landed ∧
      Agree (landed.steps config count) (whole.jump config name) ∧
      landed.history config count = [] := by
  have hconsistent := h.ready.consistent_jump config h.unlabelled name
  have hjumped := h.covers.of_keeps (keeps_jump config machine line name)
  have hknown := (h.ready.consistent_of_unlabelled h.unlabelled h.ready.index_le).label name
  have hlines := h.covers.lines
  rw [jump, show machine.context.store.label? name = _ from hknown] at hconsistent hjumped ⊢
  cases hdeclared : declaration? machine.statements.toList name with
  | some index =>
      have hwhole := label?_whole h.labels name
      rw [← hlines, declaration?_append, hdeclared] at hwhole
      rw [hdeclared] at hconsistent hjumped
      refine ⟨{ machine with index }, 0, rfl, ?_, rfl⟩
      rw [WholeMachine.jump, hwhole]
      refine .next ⟨hconsistent, hjumped, h.distinct, h.labels, h.visible, rfl, ?_⟩
      intro sought hsought
      rw [show machine.seeking = none from h.normal] at hsought
      cases hsought
  | none =>
      rw [hdeclared] at hconsistent hjumped
      have hlength : machine.index + 1 ≤ machine.statements.toList.length := h.ready.index_lt
      have hseeks : Seeks { machine with seeking := some name, index := machine.index + 1 }
          whole.lines name whole.context.visible := ⟨hconsistent, hjumped, rfl, h.visible⟩
      -- No line scanned declares the label, so the line that does so lies ahead.
      have hahead : ∀ index, declaration? whole.lines name = some index →
          machine.index + 1 ≤ index := by
        intro index hindex
        rw [← hlines, declaration?_append, hdeclared, Option.none_or,
          Option.map_eq_some_iff] at hindex
        obtain ⟨_, -, rfl⟩ := hindex
        omega
      have hbound : machine.index + 1 ≤ whole.lines.length := by
        rw [← hlines, List.length_append]
        omega
      obtain ⟨count, hagree, hhistory⟩ :=
        hseeks.agree_jump config h.distinct h.labels hbound hahead
      exact ⟨_, count, rfl, hagree, hhistory⟩

theorem steps_one (config : Config) (machine : Machine) :
    machine.steps config 1 = machine.step config := by
  rw [steps]
  split
  · next hstep => rw [hstep, steps]
  · next hstep => rw [hstep]

theorem history_one (config : Config) (machine : Machine) :
    machine.history config 1 = machine.visit?.toList := by
  rw [history]
  split
  · rw [history, List.append_nil]
  · rw [List.append_nil]

theorem AtLine.agree_execute {line : Statement} (h : AtLine machine whole line) (config : Config)
    (hline : whole.lines[whole.index]? = some line) (hindex : machine.index = whole.index) :
    Agree (machine.perform config line) (whole.step config) ∨
      ∃ landed count, machine.perform config line = .next landed ∧
        Agree (landed.steps config count) (whole.step config) ∧
        landed.history config count = [] := by
  have hconsistent := h.ready.consistent_perform config
  have hmachine := labels_execute machine.context config line
  have hwhole := (labels_execute whole.context config line).trans h.labels
  have hexecuted := h.covers.of_keeps (keeps_execute config machine line)
  obtain ⟨hshown, hresult⟩ := line.execute_congr config h.covers.input h.visible
  rw [WholeMachine.step, hline]
  dsimp only
  rw [h.unlabelled]
  rw [perform_executed h.unlabelled h.normal] at hconsistent ⊢
  generalize line.execute config machine.context = executed at *
  generalize line.execute config whole.context = executed' at *
  obtain ⟨context, result⟩ := executed
  obtain ⟨context', result'⟩ := executed'
  obtain rfl : result = result' := hresult
  match result with
  | .error failure => exact .inl (agree_fail failure hshown)
  | .ok none =>
      refine .inl (.next ⟨hconsistent, ⟨hexecuted.input, hexecuted.lines, hexecuted.ended⟩,
        h.distinct, hwhole, hshown, congrArg (· + 1) hindex, ?_⟩)
      intro sought hsought
      rw [show _ = none from h.normal] at hsought
      cases hsought
  | .ok (some name) =>
      have hafter : AtLine { machine with context } { whole with context := context' } line :=
        ⟨h.ready.withContext hmachine, h.unlabelled, h.normal, hexecuted, h.distinct, hwhole,
          hshown⟩
      exact .inr (hafter.agree_jump config name)

/-- A label is declared where the other machine does nothing. If it was looked for, it is found. -/
theorem Matches.agree_label (h : machine.Matches whole) {poised : Machine} {line : Statement}
    {name : Bytes} (hfetches : Fetches config machine poised line)
    (hcovers : poised.Covers whole.lines) (hline : whole.lines[whole.index]? = some line)
    (hlabel : line.label? = some name) : Agree (machine.step config) (whole.step config) := by
  have hconsistent := hfetches.ready.consistent_perform config
  have hperformed := hcovers.of_keeps (keeps_perform config poised line)
  have hvisible := hfetches.visible.trans h.visible
  have hindex := hfetches.index.trans h.index
  obtain ⟨labels, hdeclared⟩ := hfetches.ready.declareLabel_eq config hcovers h.distinct hlabel
  rw [hfetches.step, WholeMachine.step, hline]
  dsimp only
  rw [perform_label hlabel, hdeclared] at hconsistent hperformed ⊢
  rw [hlabel]
  refine .next ⟨hconsistent, hperformed, h.distinct, h.labels, hvisible,
    congrArg (· + 1) hindex, ?_⟩
  intro sought hsought
  dsimp only at hsought
  split at hsought
  · cases hsought
  · next hother =>
      -- Only the label of this line can have been looked for, and it is not any more.
      obtain ⟨found, hfound, hsame⟩ := h.seeking sought (hfetches.seeking.symm.trans hsought)
      obtain rfl := Option.some.inj (hline.symm.trans hfound)
      rw [hsought, ← hsame, hlabel] at hother
      exact absurd rfl hother

theorem Matches.agree_end (h : machine.Matches whole) (hend : whole.lines[whole.index]? = none)
    (hlines : machine.statements.toList = whole.lines)
    (hstep : machine.step config = .halt (machine.afterScan machine.scan)
      ((machine.afterScan machine.scan).unfinished config)) :
    Agree (machine.step config) (whole.step config) := by
  have hnormal : machine.seeking = none := by
    refine h.seeking_eq_none ?_
    intro line hline
    rw [hend] at hline
    cases hline
  have hfailure : (machine.afterScan machine.scan).unfinished config = none := by
    rw [unfinished, show (machine.afterScan machine.scan).seeking = none from hnormal]
    rfl
  rw [hstep, WholeMachine.step, hend, hfailure]
  refine .halt ((visible_afterScan machine.scan).trans h.visible) ?_
  intro _
  exact h.labels_eq hlines

/-- One step of the machine that knows the whole program is one or more of the other machine. -/
theorem Matches.agree_step (h : machine.Matches whole) (config : Config) :
    ∃ count, Agree (machine.steps config (count + 1)) (whole.step config) ∧
      machine.history config (count + 1) = whole.visit?.toList := by
  have hone : machine.current? = whole.lines[whole.index]? →
      Agree (machine.step config) (whole.step config) →
      ∃ count, Agree (machine.steps config (count + 1)) (whole.step config) ∧
        machine.history config (count + 1) = whole.visit?.toList := by
    intro hcurrent hagree
    refine ⟨0, ?_, ?_⟩
    · rw [steps_one]
      exact hagree
    · rw [history_one, h.visit?_eq hcurrent]
  rcases h.covers.fetch h.consistent config with
    ⟨line, poised, hline, hfetches, hcovers⟩ | ⟨hend, hcurrent, hlines, hstep⟩
  · rw [h.index] at hline
    have hcurrent := hfetches.current.trans hline.symm
    cases hlabel : line.label? with
    | some name => exact hone hcurrent (h.agree_label hfetches hcovers hline hlabel)
    | none =>
        have hnormal : poised.seeking = none := by
          rw [hfetches.seeking]
          refine h.seeking_eq_none ?_
          intro found hfound
          rw [← Option.some.inj (hline.symm.trans hfound)]
          exact hlabel
        have hat : AtLine poised whole line :=
          ⟨hfetches.ready, hlabel, hnormal, hcovers, h.distinct, h.labels,
            hfetches.visible.trans h.visible⟩
        rcases hat.agree_execute config hline (hfetches.index.trans h.index) with
          hagree | ⟨landed, count, hlanded, hagree, hhistory⟩
        · rw [← hfetches.step] at hagree
          exact hone hcurrent hagree
        · refine ⟨count, ?_, ?_⟩
          · rw [steps, hfetches.step, hlanded]
            exact hagree
          · rw [history, hfetches.step, hlanded, h.visit?_eq hcurrent]
            dsimp only
            rw [hhistory, List.append_nil]
  · rw [h.index] at hend
    exact hone (hcurrent.trans hend.symm) (h.agree_end hend hlines hstep)

end Machine

end LineScript
