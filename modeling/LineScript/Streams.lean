import LineScript.Source

/-!
The streams of a program: where its lines and its input come from, where its output goes, and the
order in which all this happens. A stream for output may refuse any write; a refused write leaves
nothing behind.
-/

namespace LineScript

structure Traffic where
  taken : Nat := 0
  refused : Nat := 0
  size : Nat := 0
  deriving DecidableEq, Repr, Inhabited

/-- A stream for output: it refuses a write for a reason that depends on the write and on what the
stream has been through, or else takes it whole. -/
structure Sink where
  refusal : Traffic → Bytes → Option Bytes := fun _ _ => none
  traffic : Traffic := {}

namespace Sink

def write (sink : Sink) (text : Bytes) : Sink × Option Bytes :=
  match sink.refusal sink.traffic text with
  | some reason =>
      ({ sink with traffic := { sink.traffic with refused := sink.traffic.refused + 1 } },
        some reason)
  | none =>
      ({ sink with
          traffic :=
            { sink.traffic with
              taken := sink.traffic.taken + 1
              size := sink.traffic.size + text.length } },
        none)

/-- Takes writes up to a number of bytes in all. The first write that would go beyond it is refused
and so is every later one, except for empty writes. -/
def limited (limit : Nat) : Sink where
  refusal traffic text :=
    if text ≠ [] ∧ (traffic.refused ≠ 0 ∨ limit < traffic.size + text.length) then
      some (utf8 "pipe closed")
    else none

def renew (sink : Sink) : Sink :=
  { sink with traffic := { sink.traffic with size := 0 } }

end Sink

inductive Event where
  | read (depth : Nat)
  | input
  | out (text : Bytes)
  | err (text : Bytes)
  deriving DecidableEq, Repr, Inhabited

namespace Event

def outText : Event → Bytes
  | out text => text
  | _ => []

def errText : Event → Bytes
  | err text => text
  | _ => []

/-- Events in order, with neighbouring writes to one stream joined and empty writes left out. -/
def joinWrites : List Event → List Event
  | [] => []
  | out text :: rest =>
      if text = [] then joinWrites rest
      else
        match joinWrites rest with
        | out more :: rest => out (text ++ more) :: rest
        | rest => out text :: rest
  | err text :: rest =>
      if text = [] then joinWrites rest
      else
        match joinWrites rest with
        | err more :: rest => err (text ++ more) :: rest
        | rest => err text :: rest
  | event :: rest => event :: joinWrites rest

/-- Events in order, with neighbouring writes to one stream joined. An empty write shows only where
nothing comes before it. -/
def trace : List Event → List Event
  | out [] :: rest =>
      match joinWrites rest with
      | out text :: rest => out text :: rest
      | rest => out [] :: rest
  | err [] :: rest =>
      match joinWrites rest with
      | err text :: rest => err text :: rest
      | rest => err [] :: rest
  | events => joinWrites events

end Event

structure Streams where
  program : Source := []
  /-- The input still to be read; without one the program's own lines are the input. -/
  input : Option Source := some []
  stdout : Sink := {}
  stderr : Sink := {}
  /-- What has happened, the latest first. -/
  log : List Event := []

namespace Streams

def readInput (streams : Streams) : Streams × Read :=
  match streams.input with
  | some source =>
      let (answer, rest) := source.read
      ({ streams with input := some rest, log := .input :: streams.log }, answer)
  | none =>
      let (answer, rest) := streams.program.read
      ({ streams with program := rest, log := .read 0 :: streams.log }, answer)

def writeOut (streams : Streams) (text : Bytes) : Streams × Option Bytes :=
  match streams.stdout.write text with
  | (sink, some reason) => ({ streams with stdout := sink }, some reason)
  | (sink, none) => ({ streams with stdout := sink, log := .out text :: streams.log }, none)

def writeErr (streams : Streams) (text : Bytes) : Streams × Option Bytes :=
  match streams.stderr.write text with
  | (sink, some reason) => ({ streams with stderr := sink }, some reason)
  | (sink, none) => ({ streams with stderr := sink, log := .err text :: streams.log }, none)

/-- Writes texts to the standard error stream up to the first that is refused. -/
def writeErrs (streams : Streams) : List Bytes → Streams × Option Bytes
  | [] => (streams, none)
  | text :: rest =>
      match streams.writeErr text with
      | (streams, none) => streams.writeErrs rest
      | (streams, some reason) => (streams, some reason)

def events (streams : Streams) : List Event :=
  streams.log.reverse

def outText (streams : Streams) : Bytes :=
  streams.events.flatMap Event.outText

def errText (streams : Streams) : Bytes :=
  streams.events.flatMap Event.errText

def renew (streams : Streams) : Streams :=
  { streams with stdout := streams.stdout.renew, stderr := streams.stderr.renew, log := [] }

end Streams

end LineScript
