import LineScript.Dump
import LineScript.Machine
import LineScript.Report

/-!
Sessions: runs of a program one after another, with reports of what failed. From one run to the next
the program keeps its variables, its labels, the statements scanned and the label it is looking for.
-/

namespace LineScript

structure Session where
  config : Config := {}
  machine : Machine := {}
  reporter : Reporter := {}

namespace Session

def new (config : Config) (streams : Streams) (color : Bool) : Session :=
  { config, machine := { context := { streams } }, reporter := { color } }

def streams (session : Session) : Streams :=
  session.machine.context.streams

def withStreams (session : Session) (streams : Streams) : Session :=
  { session with
    machine :=
      { session.machine with context := { session.machine.context with streams } } }

/-- Writes texts to the standard error stream one after another, whether it takes them or not. -/
def print (session : Session) (texts : List Bytes) : Session :=
  session.withStreams (texts.foldl (fun streams text => (streams.writeErr text).1) session.streams)

/-- Reports how a run failed. A request to stop is not reported. -/
def report (session : Session) : Option Failure → Session
  | none => session
  | some failure =>
      match failure.root with
      | .exit _ => session
      | _ =>
          let printed := session.print (session.reporter.lines failure)
          { printed with reporter := session.reporter.note failure }

def dumped (session : Session) : List Bytes × Option Failure :=
  session.machine.context.store.dump session.config.encoder

@[simp]
theorem dumped_withStreams (session : Session) (streams : Streams) :
    (session.withStreams streams).dumped = session.dumped :=
  rfl

def dump (session : Session) : Session × Option Failure :=
  let (chunks, failure) := session.dumped
  match session.streams.writeErrs chunks with
  | (streams, none) => (session.withStreams streams, failure)
  | (streams, some reason) => (session.withStreams streams, some (.dumpRefused reason))

/-- What is left to do when the machine has halted: the report and, if asked for, the dump. A dump
that fails is the failure of a run that has no other. -/
def finish (session : Session) (failure : Option Failure) : Session × Option Failure :=
  let session := session.report failure
  if session.config.debug then
    let (session, dumpFailure) := (session.print [utf8 "DONE\n"]).dump
    (session, failure.or dumpFailure)
  else (session, failure)

/-- Runs the program once. Nothing comes back when it has not halted after so many steps. -/
def run (session : Session) (limit : Nat) : Option (Session × Option Failure) :=
  match session.machine.start.steps session.config limit with
  | .next _ => none
  | .halt machine failure => some ({ session with machine }.finish failure)

def status (session : Session) (failure : Option Failure) : Int :=
  session.reporter.status failure

end Session

end LineScript
