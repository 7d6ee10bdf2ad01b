import LineScript.Proofs.Simulation
import LineScript.Session

/-!
What a program shows of itself: its variables, its input and its output. Labels, and how the lines
of the program are read, are hidden. As long as the input is not taken from those lines, nothing
that a statement does, and nothing that is reported after a run, depends on what is hidden.
-/

namespace LineScript

def Event.isVisible : Event → Bool
  | .read _ => false
  | _ => true

def Streams.visible (streams : Streams) : Streams :=
  { streams with program := [], log := streams.log.filter Event.isVisible }

def Store.visible (store : Store) : Store :=
  { store with labels := [] }

def Context.visible (context : Context) : Context :=
  { store := context.store.visible, streams := context.streams.visible }

namespace Streams

variable {streams : Streams}

theorem visible_visible (streams : Streams) : streams.visible.visible = streams.visible := by
  simp [visible, List.filter_filter]

theorem readInput_visible (hinput : streams.input.isSome) :
    streams.visible.readInput = (streams.readInput.1.visible, streams.readInput.2) := by
  obtain ⟨source, hsource⟩ := Option.isSome_iff_exists.mp hinput
  have hvisible : streams.visible.input = some source := hsource
  rw [readInput, readInput, hsource, hvisible]
  rfl

theorem writeOut_visible (text : Bytes) :
    streams.visible.writeOut text =
      ((streams.writeOut text).1.visible, (streams.writeOut text).2) := by
  have hstdout : streams.visible.stdout = streams.stdout := rfl
  rw [writeOut, writeOut, hstdout]
  split <;> rfl

theorem writeErr_visible (text : Bytes) :
    streams.visible.writeErr text =
      ((streams.writeErr text).1.visible, (streams.writeErr text).2) := by
  have hstderr : streams.visible.stderr = streams.stderr := rfl
  rw [writeErr, writeErr, hstderr]
  split <;> rfl

theorem writeErrs_visible (streams : Streams) (texts : List Bytes) :
    streams.visible.writeErrs texts =
      ((streams.writeErrs texts).1.visible, (streams.writeErrs texts).2) := by
  induction texts generalizing streams with
  | nil => rfl
  | cons text rest ih =>
      rw [writeErrs, writeErrs, writeErr_visible]
      generalize streams.writeErr text = written
      obtain ⟨after, refusal⟩ := written
      cases refusal with
      | none => exact ih after
      | some reason => rfl

end Streams

namespace Store

theorem declare_visible (store : Store) (name : Bytes) (kind : Kind) (value : Value) :
    store.visible.declare name kind value = (store.declare name kind value).map visible := by
  have hcoerced : (value.coerce kind).map (store.visible.setValue name) =
      ((value.coerce kind).map (store.setValue name)).map visible := by
    cases value.coerce kind <;> rfl
  have hvalue : store.visible.value? name = store.value? name := rfl
  rw [declare, declare, hvalue]
  split
  · split
    · exact hcoerced
    · rfl
  · exact hcoerced

theorem assign_visible (store : Store) (name : Bytes) (value : Value) :
    store.visible.assign name value = (store.assign name value).map visible := by
  have hvalue : store.visible.value? name = store.value? name := rfl
  rw [assign, assign, hvalue]
  split
  · rfl
  · split <;> rfl

end Store

theorem Builtin.apply_visible (function : Builtin) {streams : Streams}
    (hinput : streams.input.isSome) (args : List Value) :
    function.apply streams.visible args =
      ((function.apply streams args).1.visible, (function.apply streams args).2) := by
  cases function with
  | input =>
      rw [apply, apply, Streams.readInput_visible hinput]
  | printOut =>
      rw [apply, apply, Streams.writeOut_visible]
  | printErr =>
      rw [apply, apply, Streams.writeErr_visible]
  | not | go | goIf | exit =>
      unfold apply
      dsimp only
      split <;> rfl
  | _ => rfl

theorem Context.call_visible {context : Context} (hinput : context.streams.input.isSome)
    (token : Token) (args : List Value) :
    context.visible.call token args =
      ((context.call token args).1.visible, (context.call token args).2) := by
  rw [call, call]
  split
  · rfl
  · next function _ =>
      split
      · rfl
      · next checked _ =>
          have hstreams : context.visible.streams = context.streams.visible := rfl
          rw [hstreams, function.apply_visible hinput]
          generalize function.apply context.streams checked = applied
          obtain ⟨streams, result⟩ := applied
          cases result <;> rfl

/-- The second context is what the first shows, whose input is its own. -/
structure Shows (context shown : Context) : Prop where
  visible : shown = context.visible
  input : context.streams.input.isSome

theorem simulation_shows : Simulation Shows where
  value := by
    rintro context shown ⟨rfl, -⟩ name
    rfl
  setLastError := by
    rintro context shown ⟨rfl, hinput⟩ message
    exact ⟨rfl, hinput⟩
  call := by
    rintro context shown ⟨rfl, hinput⟩ token args
    rw [Context.call_visible hinput]
    exact ⟨⟨rfl, ((stable_program _).call ⟨hinput, rfl⟩ token args).1⟩, rfl⟩

namespace Statement

variable {context : Context}

theorem announce_visible (statement : Statement) (config : Config) (context : Context) :
    statement.announce config context.visible = (statement.announce config context).visible := by
  rw [announce, announce]
  split
  · have hstreams : context.visible.streams = context.streams.visible := rfl
    rw [hstreams, Streams.writeErr_visible]
    rfl
  · rfl

theorem deliver_visible (config : Config) (context : Context) (statement : Statement)
    (target : Option Target) (value : Value) :
    deliver config context.visible statement target value =
      ((deliver config context statement target value).1.visible,
        (deliver config context statement target value).2) := by
  cases target with
  | none =>
      have hstreams : context.visible.streams = context.streams.visible := rfl
      rw [deliver, deliver, hstreams, Streams.writeOut_visible]
      generalize context.streams.writeOut (printedText config value) = written
      obtain ⟨streams, refusal⟩ := written
      cases refusal <;> rfl
  | some target =>
      have hstore : context.visible.store = context.store.visible := rfl
      rw [deliver, deliver, hstore]
      cases target.kind with
      | none =>
          dsimp only
          rw [Store.assign_visible]
          cases context.store.assign target.name value <;> rfl
      | some kind =>
          dsimp only
          rw [Store.declare_visible]
          cases context.store.declare target.name kind value <;> rfl

/-- A statement does the same in every context that shows the same. -/
theorem execute_visible (config : Config) (statement : Statement)
    (hinput : context.streams.input.isSome) :
    statement.execute config context.visible =
      ((statement.execute config context).1.visible, (statement.execute config context).2) := by
  have hannounce : ∀ {c d : Context}, Shows c d →
      Shows (statement.announce config c) (statement.announce config d) := by
    rintro c d ⟨rfl, hc⟩
    exact ⟨statement.announce_visible config c,
      ((stable_program _).announce ⟨hc, rfl⟩ config statement).1⟩
  have hdeliver : ∀ {c d : Context}, Shows c d → ∀ target value,
      Same Shows (deliver config c statement target value)
        (deliver config d statement target value) := by
    rintro c d ⟨rfl, hc⟩ target value
    rw [deliver_visible]
    exact ⟨⟨rfl, ((stable_program _).deliver ⟨hc, rfl⟩ config statement target value).1⟩, rfl⟩
  have hexecute := simulation_shows.execute hannounce hdeliver ⟨rfl, hinput⟩
  exact Prod.ext hexecute.context.visible hexecute.result.symm

end Statement

namespace Session

/-- What a session shows, together with the labels that a dump shows. -/
def visible (session : Session) : Session :=
  { session with
    machine := { context := { session.machine.context with streams := session.streams.visible } } }

theorem context_visible (session : Session) :
    session.visible.machine.context.visible = session.machine.context.visible := by
  rw [Context.visible, Context.visible]
  show (⟨_, session.streams.visible.visible⟩ : Context) = ⟨_, session.streams.visible⟩
  rw [Streams.visible_visible]
  rfl

theorem print_visible (session : Session) (texts : List Bytes) :
    session.visible.print texts = (session.print texts).visible := by
  have hstreams : ∀ streams : Streams,
      texts.foldl (fun streams text => (streams.writeErr text).1) streams.visible =
        (texts.foldl (fun streams text => (streams.writeErr text).1) streams).visible := by
    induction texts with
    | nil => exact fun _ => rfl
    | cons text rest ih =>
        intro streams
        rw [List.foldl_cons, List.foldl_cons, Streams.writeErr_visible, ih]
  have hshown := hstreams session.streams
  rw [print, print]
  have hvisible : session.visible.streams = session.streams.visible := rfl
  rw [hvisible, hshown]
  rfl

theorem report_visible (session : Session) (failure : Option Failure) :
    session.visible.report failure = (session.report failure).visible := by
  cases failure with
  | none => rfl
  | some failure =>
      have hreporter : session.visible.reporter = session.reporter := rfl
      unfold report
      dsimp only
      rw [print_visible, hreporter]
      split <;> rfl

theorem dump_visible (session : Session) :
    session.visible.dump = (session.dump.1.visible, session.dump.2) := by
  have hstreams : session.visible.streams = session.streams.visible := rfl
  have hdumped : session.visible.dumped = session.dumped := rfl
  rw [dump, dump, hstreams, hdumped]
  obtain ⟨chunks, failure⟩ := session.dumped
  dsimp only
  rw [Streams.writeErrs_visible]
  generalize session.streams.writeErrs chunks = written
  obtain ⟨streams, refusal⟩ := written
  cases refusal <;> rfl

theorem finish_visible (session : Session) (failure : Option Failure) :
    session.visible.finish failure =
      ((session.finish failure).1.visible, (session.finish failure).2) := by
  rw [finish, finish, report_visible]
  have hconfig : (session.report failure).visible.config = (session.report failure).config := rfl
  dsimp only
  rw [hconfig, print_visible, dump_visible]
  split <;> rfl

end Session

end LineScript
