import LineScript.Proofs.WholeProgram
import LineScript.Proofs.Writes

/-!
What debugging changes. A run that announces its statements is compared with one that does not, from
the same state on. What happens in both is one script, in which the execution of a statement is a
happening of its own; only the first run shows it. Nothing else differs until the dump.
-/

namespace LineScript

def Config.withDebug (config : Config) (debug : Bool) : Config :=
  { config with debug }

/-- Something on a stream, or the beginning of an execution. -/
inductive Happening where
  | onStream (event : Event)
  | executes (statement : Statement)

namespace Happening

def event? : Happening → Option Event
  | onStream event => some event
  | executes _ => none

def statement? : Happening → Option Statement
  | onStream _ => none
  | executes statement => some statement

def announced : Happening → Event
  | onStream event => event
  | executes statement => .err statement.announcement

@[simp]
theorem event?_onStream (events : List Event) :
    (events.map onStream).filterMap event? = events := by
  simp [List.filterMap_map, Function.comp_def, event?]

@[simp]
theorem statement?_onStream (events : List Event) :
    (events.map onStream).filterMap statement? = [] := by
  simp [List.filterMap_map, Function.comp_def, statement?]

@[simp]
theorem announced_onStream (events : List Event) :
    (events.map onStream).map announced = events := by
  simp [Function.comp_def, announced]

theorem outText_announced (script : List Happening) :
    (script.map announced).flatMap Event.outText =
      (script.filterMap event?).flatMap Event.outText := by
  induction script with
  | nil => rfl
  | cons happening script ih =>
      cases happening with
      | onStream event => simp [announced, event?, ih]
      | executes statement =>
          rw [List.filterMap_cons_none rfl, ← ih]
          rfl

end Happening

theorem Event.outText_err (texts : List Bytes) :
    (texts.map Event.err).flatMap Event.outText = [] := by
  simp [List.flatMap_map, outText]

/-- Streams that differ in the standard error stream only: what has happened on the first ones is in
the script, and on the others the statements of the script have been announced as well. Neither
refuses what is written to the standard error stream. -/
structure Streams.Announced (before : List Event) (script : List Happening)
    (streams told : Streams) : Prop where
  same : told = { streams with stderr := told.stderr, log := told.log }
  events : streams.events = before ++ script.filterMap Happening.event?
  events_told : told.events = before ++ script.map Happening.announced
  takes : streams.stderr.TakesAll
  takes_told : told.stderr.TakesAll

/-- The script has gone on with nothing but events. -/
def Streams.Follows (before : List Event) (script : List Happening) (streams told : Streams) :
    Prop :=
  ∃ events : List Event, streams.Announced before (script ++ events.map .onStream) told

namespace Streams

variable {before : List Event} {script : List Happening} {streams told after afterTold : Streams}

theorem Announced.follows (h : streams.Announced before script told) :
    streams.Follows before script told :=
  ⟨[], by simpa using h⟩

theorem Announced.announce (h : streams.Announced before script told) (statement : Statement) :
    streams.Announced before (script ++ [.executes statement])
      (told.writeErr statement.announcement).1 := by
  obtain ⟨stderr, hwrite, htakes⟩ := h.takes_told.write statement.announcement
  simp only [writeErr, hwrite]
  refine ⟨?_, ?_, ?_, h.takes, htakes⟩
  · rw [h.same]
  · rw [h.events]
    simp [Happening.event?]
  · have hevents := h.events_told
    rw [Streams.events] at hevents
    simp [Streams.events, hevents, Happening.announced]

theorem Follows.push (h : streams.Follows before script told) (event : Event)
    (hsame : afterTold = { after with stderr := afterTold.stderr, log := afterTold.log })
    (hlog : after.log = event :: streams.log) (hlogTold : afterTold.log = event :: told.log)
    (htakes : after.stderr.TakesAll) (htakesTold : afterTold.stderr.TakesAll) :
    after.Follows before script afterTold := by
  obtain ⟨events, happened⟩ := h
  have hevents := happened.events
  have heventsTold := happened.events_told
  rw [Streams.events] at hevents heventsTold
  refine ⟨events ++ [event], hsame, ?_, ?_, htakes, htakesTold⟩
  · simp [Streams.events, hlog, hevents, Happening.event?]
  · simp [Streams.events, hlogTold, heventsTold, Happening.announced]

theorem Follows.writeErr (h : streams.Follows before script told) (text : Bytes) :
    (streams.writeErr text).1.Follows before script (told.writeErr text).1 ∧
      (streams.writeErr text).2 = none ∧ (told.writeErr text).2 = none := by
  have ⟨_, hannounced⟩ := h
  obtain ⟨stderr, hwrite, htakes⟩ := hannounced.takes.write text
  obtain ⟨stderrTold, hwriteTold, htakesTold⟩ := hannounced.takes_told.write text
  simp only [Streams.writeErr, hwrite, hwriteTold, and_self, and_true]
  refine h.push (.err text) ?_ rfl rfl htakes htakesTold
  rw [hannounced.same]

theorem Follows.writeOut (h : streams.Follows before script told) (text : Bytes) :
    (streams.writeOut text).1.Follows before script (told.writeOut text).1 ∧
      (told.writeOut text).2 = (streams.writeOut text).2 := by
  have ⟨events, hannounced⟩ := h
  have hsame := hannounced.same
  have hstdout : told.stdout = streams.stdout := by rw [hsame]
  rw [Streams.writeOut, Streams.writeOut, hstdout]
  generalize streams.stdout.write text = wrote
  obtain ⟨stdout, _ | reason⟩ := wrote
  · refine ⟨h.push (.out text) ?_ rfl rfl hannounced.takes hannounced.takes_told, rfl⟩
    rw [hsame]
  · refine ⟨⟨events, ?_, hannounced.events, hannounced.events_told, hannounced.takes,
      hannounced.takes_told⟩, rfl⟩
    rw [hsame]

theorem Follows.readInput (h : streams.Follows before script told) :
    streams.readInput.1.Follows before script told.readInput.1 ∧
      told.readInput.2 = streams.readInput.2 := by
  have ⟨_, hannounced⟩ := h
  have hsame := hannounced.same
  have hinput : told.input = streams.input := by rw [hsame]
  have hprogram : told.program = streams.program := by rw [hsame]
  rw [Streams.readInput, Streams.readInput, hinput, hprogram]
  split
  · refine ⟨h.push .input ?_ rfl rfl hannounced.takes hannounced.takes_told, rfl⟩
    rw [hsame]
  · refine ⟨h.push (.read 0) ?_ rfl rfl hannounced.takes hannounced.takes_told, rfl⟩
    rw [hsame]

theorem Follows.apply (h : streams.Follows before script told) (function : Builtin)
    (args : List Value) :
    (function.apply streams args).1.Follows before script (function.apply told args).1 ∧
      (function.apply told args).2 = (function.apply streams args).2 := by
  cases function with
  | input => exact ⟨h.readInput.1, congrArg Builtin.readOutcome h.readInput.2⟩
  | printOut => exact ⟨(h.writeOut _).1, congrArg Builtin.writeOutcome (h.writeOut _).2⟩
  | printErr =>
      obtain ⟨hfollows, htaken, htakenTold⟩ := h.writeErr (Builtin.concat [] (utf8 "\n") args)
      exact ⟨hfollows, congrArg Builtin.writeOutcome (htakenTold.trans htaken.symm)⟩
  | not | go | goIf | exit =>
      unfold Builtin.apply
      dsimp only
      split <;> exact ⟨h, rfl⟩
  | _ => exact ⟨h, rfl⟩

end Streams

/-- Contexts whose streams follow the script. -/
structure Context.Follows (before : List Event) (script : List Happening)
    (context told : Context) : Prop where
  store : told.store = context.store
  streams : context.streams.Follows before script told.streams

theorem simulation_follows (before : List Event) (script : List Happening) :
    Simulation (Context.Follows before script) where
  value := by
    intro c d h name
    rw [h.store]
  setLastError := by
    intro c d h message
    refine ⟨?_, h.streams⟩
    rw [Context.setLastError, Context.setLastError, h.store]
  call := by
    intro c d h token args
    rw [Context.call, Context.call]
    split
    · exact ⟨h, rfl⟩
    · next function _ =>
        split
        · exact ⟨h, rfl⟩
        · next checked _ =>
            obtain ⟨hstreams, hresult⟩ := h.streams.apply function checked
            dsimp only
            rw [hresult]
            split <;> exact ⟨⟨h.store, hstreams⟩, rfl⟩

namespace Statement

variable {before : List Event} {script : List Happening} {context told : Context}

theorem follows_deliver (h : context.Follows before script told) (config : Config)
    (statement : Statement) (target : Option Target) (value : Value) :
    Same (Context.Follows before script) (deliver config context statement target value)
      (deliver config told statement target value) := by
  cases target with
  | none =>
      obtain ⟨hwritten, hrefusal⟩ := h.streams.writeOut (printedText config value)
      rw [deliver, deliver]
      generalize context.streams.writeOut (printedText config value) = wrote,
        told.streams.writeOut (printedText config value) = wroteTold at hwritten hrefusal
      obtain ⟨streams, refusal⟩ := wrote
      obtain ⟨streamsTold, refusalTold⟩ := wroteTold
      cases hrefusal
      cases refusal <;> exact ⟨⟨h.store, hwritten⟩, rfl⟩
  | some target =>
      rw [deliver, deliver, h.store]
      split
      · exact ⟨⟨rfl, h.streams⟩, rfl⟩
      · exact ⟨h, rfl⟩

theorem follows_execute (hstore : told.store = context.store)
    (h : context.streams.Announced before script told.streams) (config : Config)
    (statement : Statement) :
    Same (Context.Follows before (script ++ [.executes statement]))
      (statement.execute (config.withDebug false) context)
      (statement.execute (config.withDebug true) told) := by
  have hannounced : context.Follows before (script ++ [.executes statement])
      (statement.announce (config.withDebug true) told) :=
    ⟨hstore, (h.announce statement).follows⟩
  -- Once the statement has been announced, both are executed under the first configuration.
  have hexecute : Same (Context.Follows before (script ++ [.executes statement]))
      (statement.execute (config.withDebug false) context)
      (statement.execute (config.withDebug false)
        (statement.announce (config.withDebug true) told)) := by
    refine (simulation_follows before (script ++ [.executes statement])).execute ?_ ?_ hannounced
    · exact fun h => h
    · exact fun h target value => follows_deliver h _ statement target value
  exact hexecute

end Statement

def Visit.place (visit : Visit) : Nat × Statement :=
  (visit.index, visit.line)

structure Machine.Announced (before : List Event) (script : List Happening)
    (machine told : Machine) : Prop where
  same : told = { machine with context := told.context }
  store : told.context.store = machine.context.store
  streams : machine.context.streams.Announced before script told.context.streams

inductive Step.Announced (before : List Event) (script : List Happening) : Step → Step → Prop
  | next {machine told : Machine} (h : machine.Announced before script told) :
      Announced before script (.next machine) (.next told)
  | halt {machine told : Machine} (h : machine.Announced before script told)
      (failure : Option Failure) :
      Announced before script (.halt machine failure) (.halt told failure)

namespace Machine

variable {before : List Event} {script : List Happening} {machine told : Machine}

theorem Announced.fail (h : machine.Announced before script told) (config : Config)
    (failed : Option Statement) (failure : Failure) :
    Step.Announced before script (machine.fail (config.withDebug false) failed failure)
      (told.fail (config.withDebug true) failed failure) := by
  rw [Machine.fail, Machine.fail]
  split <;> exact .halt h _

theorem Announced.withContext (h : machine.Announced before script told)
    {later : List Happening} {context contextTold : Context}
    (hcontext : context.Follows before later contextTold) :
    ∃ events : List Event, { machine with context }.Announced before
      (later ++ events.map Happening.onStream) { told with context := contextTold } := by
  obtain ⟨events, hstreams⟩ := hcontext.streams
  refine ⟨events, ?_, hcontext.store, hstreams⟩
  rw [h.same]

theorem Announced.declareLabel (h : machine.Announced before script told) (config : Config)
    (statement : Statement) (name : Bytes) :
    Step.Announced before script (machine.declareLabel (config.withDebug false) statement name)
      (told.declareLabel (config.withDebug true) statement name) := by
  have hindex : told.index = machine.index := by rw [h.same]
  have hseeking : told.seeking = machine.seeking := by rw [h.same]
  rw [Machine.declareLabel, Machine.declareLabel, h.store, hindex, hseeking]
  split
  · exact h.fail config _ _
  · refine .next ⟨?_, rfl, h.streams⟩
    rw [h.same]

theorem Announced.jump (h : machine.Announced before script told) (config : Config)
    (statement : Statement) (name : Bytes) :
    Step.Announced before script (machine.jump (config.withDebug false) statement name)
      (told.jump (config.withDebug true) statement name) := by
  have hindex : told.index = machine.index := by rw [h.same]
  rw [Machine.jump, Machine.jump, h.store, hindex]
  split
  · refine .next ⟨?_, h.store, h.streams⟩
    rw [h.same]
  · exact h.fail config _ _
  · refine .next ⟨?_, h.store, h.streams⟩
    rw [h.same]

theorem Announced.advance (h : machine.Announced before script told) :
    Step.Announced before script (.next machine.advance) (.next told.advance) := by
  refine .next ⟨?_, h.store, h.streams⟩
  rw [h.same]
  rfl

def executed (machine : Machine) (statement : Statement) : List Statement :=
  if statement.label? = none ∧ machine.seeking = none then [statement] else []

theorem Announced.perform (h : machine.Announced before script told) (config : Config)
    (statement : Statement) :
    ∃ more : List Happening,
      Step.Announced before (script ++ more) (machine.perform (config.withDebug false) statement)
        (told.perform (config.withDebug true) statement) ∧
      more.filterMap Happening.statement? = machine.executed statement := by
  have hseekingTold : told.seeking = machine.seeking := by rw [h.same]
  have hnothing : script = script ++ [] := (List.append_nil script).symm
  cases hlabel : statement.label? with
  | some name =>
      refine ⟨[], ?_, by simp [executed, hlabel]⟩
      rw [perform_label hlabel, perform_label hlabel, ← hnothing]
      exact h.declareLabel config statement name
  | none =>
      cases hseeking : machine.seeking with
      | some name =>
          refine ⟨[], ?_, by simp [executed, hseeking]⟩
          rw [perform_passed hlabel hseeking, perform_passed hlabel (hseekingTold.trans hseeking),
            ← hnothing]
          exact h.advance
      | none =>
          obtain ⟨hcontext, hresult⟩ :=
            Statement.follows_execute h.store h.streams config statement
          rw [perform_executed hlabel hseeking,
            perform_executed hlabel (hseekingTold.trans hseeking)]
          obtain ⟨events, hmachine⟩ := h.withContext hcontext
          refine ⟨.executes statement :: events.map .onStream, ?_, ?_⟩
          · generalize statement.execute (config.withDebug false) machine.context = done,
              statement.execute (config.withDebug true) told.context = doneTold
              at hmachine hresult
            obtain ⟨context, result⟩ := done
            obtain ⟨contextTold, resultTold⟩ := doneTold
            cases hresult
            rw [List.append_assoc] at hmachine
            match result with
            | .error failure => exact hmachine.fail config statement failure
            | .ok none => exact hmachine.advance
            | .ok (some name) => exact hmachine.jump config statement name
          · rw [List.filterMap_cons, Happening.statement?_onStream]
            simp [executed, hlabel, hseeking, Happening.statement?]

theorem Announced.scan_eq (h : machine.Announced before script told) :
    told.scan = machine.scan := by
  have hscanner : told.scanner = machine.scanner := by rw [h.same]
  have hprogram : told.context.streams.program = machine.context.streams.program := by
    rw [h.streams.same]
  rw [scan, scan, hscanner, hprogram]

theorem Announced.afterScan (h : machine.Announced before script told) (scan : Scan) :
    ∃ events : List Event, (machine.afterScan scan).Announced before
      (script ++ events.map Happening.onStream) (told.afterScan scan) := by
  have hevents := h.streams.events
  have heventsTold := h.streams.events_told
  rw [Streams.events] at hevents heventsTold
  refine ⟨scan.depths.map .read, ?_, h.store, ?_, ?_, ?_, h.streams.takes, h.streams.takes_told⟩
  · rw [h.same]
    rfl
  · rw [Machine.afterScan, Machine.afterScan, h.streams.same]
  · rw [List.filterMap_append, Happening.event?_onStream, ← List.append_assoc, ← hevents]
    simp [Machine.afterScan, Streams.events]
  · rw [List.map_append, Happening.announced_onStream, ← List.append_assoc, ← heventsTold]
    simp [Machine.afterScan, Streams.events]

theorem Announced.obtains (h : machine.Announced before script told) {ready : Machine}
    {statement : Statement} (hobtains : machine.Obtains ready statement) :
    ∃ (readyTold : Machine) (events : List Event), told.Obtains readyTold statement ∧
      ready.Announced before (script ++ events.map .onStream) readyTold := by
  have hindex : told.index = machine.index := by rw [h.same]
  have hstatements : told.statements = machine.statements := by rw [h.same]
  cases hobtains with
  | known hcurrent =>
      refine ⟨told, [], .known ?_, by simpa using h⟩
      rwa [hindex, hstatements]
  | scanned hend hscan =>
      obtain ⟨events, hscanned⟩ := h.afterScan machine.scan
      refine ⟨told.append statement, events, .scanned ?_ ?_, ?_, hscanned.store, ?_⟩
      · rwa [hindex, hstatements]
      · rwa [h.scan_eq]
      · rw [append, append, h.scan_eq, hstatements, hscanned.same]
      · rw [append, append, h.scan_eq]
        exact hscanned.streams

theorem Obtains.executed_eq {ready : Machine} {statement : Statement}
    (h : machine.Obtains ready statement) :
    ready.executed statement = machine.visit?.toList.map Visit.line := by
  have hcurrent : machine.current? = some statement := by
    cases h with
    | known hcurrent => rw [current?, hcurrent, Option.some_or]
    | scanned hend hscan =>
        have hnone : machine.statements[machine.index]? = none := by simp [hend]
        rw [current?, scanned?, hnone, hscan, Option.none_or]
  have hseeking : ready.seeking = machine.seeking := by cases h <;> rfl
  rw [executed, hseeking, visit?, hcurrent]
  cases machine.seeking with
  | some name => simp
  | none => cases hlabel : statement.label? <;> simp [Visit.of?, hlabel]

theorem Announced.halt_unfinished (h : machine.Announced before script told) (config : Config) :
    Step.Announced before script (.halt machine (machine.unfinished (config.withDebug false)))
      (.halt told (told.unfinished (config.withDebug true))) := by
  have hseeking : told.seeking = machine.seeking := by rw [h.same]
  have hstatements : told.statements = machine.statements := by rw [h.same]
  have hsame : told.unfinished (config.withDebug true) =
      machine.unfinished (config.withDebug false) := by
    rw [unfinished, unfinished, hseeking, hstatements]
    rfl
  rw [hsame]
  exact .halt h _

/-- A step that announces its statement takes the same course as one that does not. -/
theorem Announced.step (h : machine.Announced before script told) (hconsistent : machine.Consistent)
    (config : Config) :
    ∃ more : List Happening,
      Step.Announced before (script ++ more) (machine.step (config.withDebug false))
        (told.step (config.withDebug true)) ∧
      more.filterMap Happening.statement? = machine.visit?.toList.map Visit.line := by
  have hperformed : ∀ {ready : Machine} {statement : Statement},
      machine.Obtains ready statement → ∃ more : List Happening,
        Step.Announced before (script ++ more) (machine.step (config.withDebug false))
          (told.step (config.withDebug true)) ∧
        more.filterMap Happening.statement? = machine.visit?.toList.map Visit.line := by
    intro ready statement hobtains
    obtain ⟨readyTold, events, hobtainsTold, hready⟩ := h.obtains hobtains
    obtain ⟨more, hstep, hexecuted⟩ := hready.perform config statement
    refine ⟨events.map .onStream ++ more, ?_, ?_⟩
    · rw [hobtains.step_eq, hobtainsTold.step_eq, ← List.append_assoc]
      exact hstep
    · rw [List.filterMap_append, hexecuted, hobtains.executed_eq, Happening.statement?_onStream,
        List.nil_append]
  cases hcurrent : machine.statements[machine.index]? with
  | some statement => exact hperformed (.known hcurrent)
  | none =>
      have hcurrentTold : told.statements[told.index]? = none := by
        rw [h.same]
        exact hcurrent
      obtain ⟨events, hscanned⟩ := h.afterScan machine.scan
      have hvisits : machine.scanned? = none →
          (events.map Happening.onStream).filterMap Happening.statement? =
            machine.visit?.toList.map Visit.line := by
        intro hnone
        rw [visit?, current?, hcurrent, hnone, Happening.statement?_onStream]
        cases machine.seeking <;> rfl
      cases hscan : machine.scan.result with
      | ended =>
          refine ⟨events.map .onStream, ?_, hvisits (by rw [scanned?, hcurrent, hscan])⟩
          rw [step_of_ended hcurrent hscan,
            step_of_ended hcurrentTold (by rw [h.scan_eq, hscan]), h.scan_eq]
          exact hscanned.halt_unfinished config
      | failed part failure =>
          refine ⟨events.map .onStream, ?_, hvisits (by rw [scanned?, hcurrent, hscan])⟩
          rw [step_of_failed hcurrent hscan,
            step_of_failed hcurrentTold (by rw [h.scan_eq, hscan]), h.scan_eq]
          exact hscanned.fail config part failure
      | statement statement =>
          have hend : machine.index = machine.statements.size :=
            Nat.le_antisymm hconsistent.index_le (Array.getElem?_eq_none_iff.mp hcurrent)
          exact hperformed (.scanned hend hscan)

theorem Announced.visit?_place (h : machine.Announced before script told) :
    told.visit?.map Visit.place = machine.visit?.map Visit.place := by
  have hindex : told.index = machine.index := by rw [h.same]
  have hstatements : told.statements = machine.statements := by rw [h.same]
  have hseeking : told.seeking = machine.seeking := by rw [h.same]
  have hcurrent : told.current? = machine.current? := by
    rw [current?, current?, scanned?, scanned?, h.scan_eq, hindex, hstatements]
  rw [visit?, visit?, hseeking, hcurrent, hindex]
  cases machine.seeking with
  | some name => rfl
  | none =>
      cases machine.current? with
      | none => rfl
      | some statement => cases hlabel : statement.label? <;> simp [Visit.of?, Visit.place, hlabel]

theorem Announced.steps (h : machine.Announced before script told)
    (hconsistent : machine.Consistent) (config : Config) (count : Nat) :
    (told.history (config.withDebug true) count).map Visit.place =
      (machine.history (config.withDebug false) count).map Visit.place ∧
    ∃ more : List Happening,
      Step.Announced before (script ++ more) (machine.steps (config.withDebug false) count)
        (told.steps (config.withDebug true) count) ∧
      more.filterMap Happening.statement? =
        (machine.history (config.withDebug false) count).map Visit.line := by
  induction count generalizing script machine told with
  | zero => exact ⟨rfl, [], by simpa using .next h, rfl⟩
  | succ count ih =>
      have hplace := congrArg Option.toList h.visit?_place
      simp only [Option.toList_map] at hplace
      have hnext := hconsistent.consistent_step (config.withDebug false)
      obtain ⟨more, hstep, hexecuted⟩ := h.step hconsistent config
      rw [Machine.steps, Machine.steps, history, history]
      generalize machine.step (config.withDebug false) = step,
        told.step (config.withDebug true) = stepTold at hstep hnext
      cases hstep with
      | next hreached =>
          obtain ⟨hplaces, rest, hrest, hlines⟩ := ih hreached hnext
          simp only [List.map_append, hplace, hplaces, true_and]
          refine ⟨more ++ rest, ?_, ?_⟩
          · rwa [← List.append_assoc]
          · rw [List.filterMap_append, hexecuted, hlines]
      | halt hreached failure =>
          simp only [List.append_nil]
          exact ⟨hplace, more, .halt hreached failure, hexecuted⟩

end Machine

namespace Streams

variable {before : List Event} {script : List Happening} {streams told : Streams}

theorem Follows.print (h : streams.Follows before script told) (texts : List Bytes) :
    (texts.foldl (fun streams text => (streams.writeErr text).1) streams).Follows before script
      (texts.foldl (fun streams text => (streams.writeErr text).1) told) := by
  induction texts generalizing streams told with
  | nil => exact h
  | cons text texts ih => exact ih (h.writeErr text).1

end Streams

namespace Session

def withDebug (session : Session) (debug : Bool) : Session :=
  { session with config := session.config.withDebug debug }

/-- Sessions that differ in their standard error streams only, of which the second debugs. -/
structure Announced (before : List Event) (script : List Happening) (session told : Session) :
    Prop where
  config : told.config = session.config.withDebug true
  reporter : told.reporter = session.reporter
  machine : session.machine.Announced before script told.machine

variable {before : List Event} {script : List Happening} {session told : Session}

theorem Announced.eq (h : session.Announced before script told) :
    told = (session.withDebug true).withStreams
      { session.streams with stderr := told.streams.stderr, log := told.streams.log } := by
  have hcontext : told.machine.context =
      ⟨session.machine.context.store, told.machine.context.streams⟩ := by
    rw [← h.machine.store]
  have hmachine := h.machine.same
  rw [hcontext, h.machine.streams.same] at hmachine
  calc
    told = ⟨told.config, told.machine, told.reporter⟩ := rfl
    _ = _ := by
      rw [h.config, h.reporter, hmachine]
      rfl

theorem Announced.dumped_eq (h : session.Announced before script told) :
    told.dumped = session.dumped := by
  rw [dumped, h.machine.store, h.config]
  rfl

theorem Announced.print (h : session.Announced before script told) (texts : List Bytes) :
    ∃ events : List Event, (session.print texts).Announced before
      (script ++ events.map Happening.onStream) (told.print texts) := by
  have hcontext : ({ session.machine.context with
      streams := (session.print texts).streams } : Context).Follows before script
        { told.machine.context with streams := (told.print texts).streams } :=
    ⟨h.machine.store, h.machine.streams.follows.print texts⟩
  obtain ⟨events, hprinted⟩ := h.machine.withContext hcontext
  exact ⟨events, h.config, h.reporter, hprinted⟩

theorem Announced.report (h : session.Announced before script told) (failure : Option Failure) :
    ∃ events : List Event, (session.report failure).Announced before
      (script ++ events.map Happening.onStream) (told.report failure) := by
  cases failure with
  | none => exact ⟨[], by simpa [Session.report] using h⟩
  | some failure =>
      rw [Session.report, Session.report, h.reporter]
      split
      · exact ⟨[], by simpa using h⟩
      · obtain ⟨events, hprinted⟩ := h.print (session.reporter.lines failure)
        exact ⟨events, hprinted.config, rfl, hprinted.machine⟩

/-- Only the run that debugs goes on after the report. -/
theorem Announced.finish (h : session.Announced before script told)
    (hdebug : session.config.debug = false) (failure : Option Failure) {after : Session}
    {returned : Option Failure} (hfinish : session.finish failure = (after, returned)) :
    returned = failure ∧ ∃ (stderr : Sink) (log : List Event) (events : List Event),
      told.finish failure =
        ((after.withDebug true).withStreams { after.streams with stderr, log },
          failure.or after.dumped.2) ∧
      after.streams.events =
        before ++ (script ++ events.map Happening.onStream).filterMap Happening.event? ∧
      log.reverse = before ++ (script ++ events.map Happening.onStream).map Happening.announced ++
        (utf8 "DONE\n" :: after.dumped.1).map Event.err := by
  obtain ⟨events, hreported⟩ := h.report failure
  obtain ⟨stderr, texts, reporter, hreport⟩ := session.report_eq failure
  have hplain : (session.report failure).config.debug = false := by
    rw [hreport]
    exact hdebug
  have htold : (told.report failure).config.debug = true := by
    rw [hreported.config]
    rfl
  rw [Session.finish, hplain] at hfinish
  obtain ⟨rfl, rfl⟩ := Prod.mk.inj hfinish
  obtain ⟨last, hdump⟩ :=
    print_dump_of_takesAll hreported.machine.streams.takes_told (utf8 "DONE\n")
  rw [hreported.dumped_eq] at hdump
  refine ⟨rfl, last, ((utf8 "DONE\n" ::
    (session.report failure).dumped.1).map Event.err).reverse ++
      (told.report failure).streams.log, events, ?_, hreported.machine.streams.events, ?_⟩
  · rw [Session.finish, htold, hdump, hreported.eq]
    rfl
  · rw [List.reverse_append, List.reverse_reverse]
    exact congrArg (· ++ _) hreported.machine.streams.events_told

theorem announced_steps {session : Session} (hconsistent : session.machine.Consistent)
    (hstderr : session.streams.stderr.TakesAll) (limit : Nat) :
    (session.machine.start.history (session.config.withDebug true) limit).map Visit.place =
      (session.machine.start.history (session.config.withDebug false) limit).map Visit.place ∧
    ∃ script : List Happening,
      Step.Announced session.streams.events script
        (session.machine.start.steps (session.config.withDebug false) limit)
        (session.machine.start.steps (session.config.withDebug true) limit) ∧
      script.filterMap Happening.statement? =
        (session.machine.start.history (session.config.withDebug false) limit).map
          Visit.line := by
  have hstart : session.machine.start.Announced session.streams.events [] session.machine.start :=
    ⟨rfl, rfl, rfl, (List.append_nil _).symm, (List.append_nil _).symm, hstderr, hstderr⟩
  exact hstart.steps hconsistent.consistent_start session.config limit

theorem run_withDebug_eq (session : Session) (debug : Bool) (limit : Nat) :
    (session.withDebug debug).run limit =
      match session.machine.start.steps (session.config.withDebug debug) limit with
      | .next _ => none
      | .halt machine failure => some ({ session.withDebug debug with machine }.finish failure) :=
  rfl

theorem announced_run {session : Session} (hconsistent : session.machine.Consistent)
    (hstderr : session.streams.stderr.TakesAll) {limit : Nat} {after : Session}
    {returned : Option Failure}
    (hplain : (session.withDebug false).run limit = some (after, returned)) :
    ∃ (told : Session) (stderr : Sink) (log : List Event) (script : List Happening),
      (session.withDebug true).run limit =
        some (told, returned.or after.dumped.2) ∧
      told = (after.withDebug true).withStreams { after.streams with stderr, log } ∧
      after.streams.events = session.streams.events ++ script.filterMap Happening.event? ∧
      told.streams.events = session.streams.events ++ script.map Happening.announced ++
        (utf8 "DONE\n" :: after.dumped.1).map Event.err ∧
      script.filterMap Happening.statement? =
        (session.machine.start.history (session.config.withDebug false) limit).map
          Visit.line := by
  obtain ⟨-, script, hsteps, hlines⟩ := announced_steps hconsistent hstderr limit
  rw [run_withDebug_eq] at hplain ⊢
  generalize session.machine.start.steps (session.config.withDebug false) limit = step,
    session.machine.start.steps (session.config.withDebug true) limit = stepTold at hsteps hplain
  cases hsteps with
  | next => cases hplain
  | @halt machine told hmachine failure =>
      have hsession : Announced session.streams.events script
          { session.withDebug false with machine } { session.withDebug true with machine := told } :=
        ⟨rfl, rfl, hmachine⟩
      obtain ⟨rfl, stderr, log, events, hfinish, hevents, hlog⟩ :=
        hsession.finish rfl failure (Option.some.inj hplain)
      refine ⟨_, stderr, log, script ++ events.map Happening.onStream, congrArg some hfinish, rfl,
        hevents, hlog, ?_⟩
      rw [List.filterMap_append, hlines, Happening.statement?_onStream, List.append_nil]

end Session

namespace Stage

/-- Debugging does not change what a program does. From any state that it can be in between two
runs, with a standard error stream that refuses nothing, a run that is asked to announce its
statements and to dump the store is compared with one that is not:
* both execute the same lines in the same order, and one comes to an end if the other does,
* both end with the same variables, labels, statements scanned, reports remembered, lines and input
  still to be read, and have written the same to the standard output,
* the first comes to the failure of the second or, if that has none, to what the dump fails with,
* one script tells what happens in both: the events of the second run, among which the lines
  executed stand. The first run announces each of these in its place and says in the end that it is
  done, before the dump. -/
theorem Reaches.run_withDebug {config : Config} {streams : Streams} {color : Bool}
    {scanned : List Statement} {session : Session}
    (hreaches : Reaches (idle (Session.new config streams color)) scanned (idle session))
    (hstderr : session.streams.stderr.TakesAll) (limit : Nat) :
    (session.machine.start.history (session.config.withDebug true) limit).map Visit.place =
      (session.machine.start.history (session.config.withDebug false) limit).map Visit.place ∧
    ((session.withDebug true).run limit = none ↔ (session.withDebug false).run limit = none) ∧
    ∀ after returned, (session.withDebug false).run limit = some (after, returned) →
      ∃ (told : Session) (stderr : Sink) (log : List Event) (script : List Happening),
        (session.withDebug true).run limit =
          some (told, returned.or after.dumped.2) ∧
        told = (after.withDebug true).withStreams { after.streams with stderr, log } ∧
        told.streams.outText = after.streams.outText ∧
        after.streams.events = session.streams.events ++ script.filterMap Happening.event? ∧
        told.streams.events = session.streams.events ++ script.map Happening.announced ++
          (utf8 "DONE\n" :: after.dumped.1).map Event.err ∧
        script.filterMap Happening.statement? =
          (session.machine.start.history (session.config.withDebug false) limit).map
            Visit.line := by
  have hconsistent : session.machine.Consistent :=
    (hreaches.preserves (consistent_new config streams color)).1
  obtain ⟨hplaces, _, hsteps, -⟩ := Session.announced_steps hconsistent hstderr limit
  refine ⟨hplaces, ?_, ?_⟩
  · rw [Session.run_withDebug_eq, Session.run_withDebug_eq]
    generalize session.machine.start.steps (session.config.withDebug false) limit = step,
      session.machine.start.steps (session.config.withDebug true) limit = stepTold at hsteps
    cases hsteps <;> simp
  · intro after returned hplain
    obtain ⟨told, stderr, log, script, htold, hsame, hevents, heventsTold, hlines⟩ :=
      Session.announced_run hconsistent hstderr hplain
    refine ⟨told, stderr, log, script, htold, hsame, ?_, hevents, heventsTold, hlines⟩
    rw [Streams.outText, Streams.outText, hevents, heventsTold]
    simp only [List.flatMap_append, Happening.outText_announced, Event.outText_err,
      List.append_nil]

def overheard : Streams where
  program := .ofBytes (utf8 "(go !b)\n(out \"a\")\n!b\n(err \"c\")\nx : 1\n")

theorem run_withDebug_overheard :
    ∃ (after told : Session) (failure : Failure) (script : List Happening),
      (Session.new {} overheard false).run 6 = some (after, some failure) ∧
      (Session.new { debug := true } overheard false).run 6 = some (told, some failure) ∧
      told.machine.context.store = after.machine.context.store ∧
      told.reporter = { hadRuntimeError := true } ∧
      after.streams.events = script.filterMap Happening.event? ∧
      told.streams.events = script.map Happening.announced ++
        (utf8 "DONE\n" :: after.dumped.1).map Event.err ∧
      (script.filterMap Happening.statement?).map Statement.number = [1, 4, 5] := by
  have hrun : ((Session.new {} overheard false).run 6).map
      (fun result => (result.2.isSome, result.1.reporter)) =
        some (true, { hadRuntimeError := true }) := by
    decide +kernel
  have hlines : (((Session.new {} overheard false).machine.start.history {} 6).map
      Visit.line).map Statement.number = [1, 4, 5] := by
    decide +kernel
  obtain ⟨⟨after, returned⟩, hresult, hends⟩ := Option.map_eq_some_iff.mp hrun
  obtain ⟨hfails, hreporter⟩ := Prod.mk.inj hends
  obtain ⟨failure, rfl⟩ := Option.isSome_iff_exists.mp hfails
  have hfirst : Reaches (idle (Session.new {} overheard false)) [] _ := .refl
  obtain ⟨told, stderr, log, script, htold, hsame, -, hevents, heventsTold, hstatements⟩ :=
    (hfirst.run_withDebug (fun _ _ => rfl) 6).2.2 after (some failure) hresult
  refine ⟨after, told, failure, script, hresult, htold, by rw [hsame]; rfl, ?_, hevents,
    heventsTold, ?_⟩
  · rw [hsame]
    exact hreporter
  · rw [hstatements]
    exact hlines

end Stage

end LineScript
