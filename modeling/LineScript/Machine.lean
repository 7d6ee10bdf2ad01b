import LineScript.Execution
import LineScript.Scanner

/-!
The machine that runs a program. Statements are scanned when execution reaches them and kept, so that
going back scans nothing again. A jump to a label that is not known yet makes the machine pass over
statements until one declares it.
-/

namespace LineScript

structure Machine where
  scanner : Scanner := {}
  context : Context := {}
  statements : Array Statement := #[]
  index : Nat := 0
  /-- The label that statements are passed over for. -/
  seeking : Option Bytes := none

inductive Step where
  | next (machine : Machine)
  | halt (machine : Machine) (failure : Option Failure)

namespace Machine

/-- Halts with a failure of the given statement. A request to stop stays as it is. -/
def fail (config : Config) (machine : Machine) (statement : Option Statement)
    (failure : Failure) : Step :=
  match failure.root with
  | .exit _ => .halt machine failure
  | _ => .halt machine (failure.locate config.file statement)

def advance (machine : Machine) : Machine :=
  { machine with index := machine.index + 1 }

def declareLabel (config : Config) (machine : Machine) (statement : Statement) (name : Bytes) :
    Step :=
  match machine.context.store.defineLabel name machine.index with
  | .error cause => machine.fail config statement (.runtime statement.tokens.head? cause)
  | .ok store =>
      .next { machine with
        context := { machine.context with store }
        seeking := if machine.seeking = some name then none else machine.seeking
        index := machine.index + 1 }

/-- Goes on at a label: at the statement that declares it if that is known, and otherwise with
passing over statements. -/
def jump (config : Config) (machine : Machine) (statement : Statement) (name : Bytes) : Step :=
  match machine.context.store.label? name with
  | some (.ofNat index) => .next { machine with index }
  | some (.negSucc _) => machine.fail config statement .misuse
  | none => .next { machine with seeking := some name, index := machine.index + 1 }

def perform (config : Config) (machine : Machine) (statement : Statement) : Step :=
  match statement.label? with
  | some name => machine.declareLabel config statement name
  | none =>
      if machine.seeking.isSome then .next machine.advance
      else
        match statement.execute config machine.context with
        | (context, .error failure) => { machine with context }.fail config statement failure
        | (context, .ok none) => .next { machine with context }.advance
        | (context, .ok (some name)) => { machine with context }.jump config statement name

def afterScan (machine : Machine) (scan : Scan) : Machine :=
  let streams := machine.context.streams
  let log := scan.depths.foldl (fun log depth => .read depth :: log) streams.log
  { machine with
    scanner := scan.scanner
    context := { machine.context with streams := { streams with program := scan.source, log } } }

/-- The failure of a program that ends while statements are passed over for a label. -/
def unfinished (config : Config) (machine : Machine) : Option Failure :=
  machine.seeking.map fun name =>
    Failure.locate config.file machine.statements.back? (.runtime none (.labelNotFound name))

/-- One step: performs the statement at the current index, which is scanned first if it has not
been. -/
def step (config : Config) (machine : Machine) : Step :=
  match machine.statements[machine.index]? with
  | some statement => machine.perform config statement
  | none =>
      let scan := machine.scanner.next machine.context.streams.program
      let machine := machine.afterScan scan
      match scan.result with
      | .ended => .halt machine (machine.unfinished config)
      | .failed part failure => machine.fail config part failure
      | .statement statement =>
          let machine := { machine with statements := machine.statements.push statement }
          match machine.statements[machine.index]? with
          | some statement => machine.perform config statement
          | none => machine.fail config statement .misuse

def steps (config : Config) : Nat → Machine → Step
  | 0, machine => .next machine
  | count + 1, machine =>
      match machine.step config with
      | .next machine => steps config count machine
      | .halt machine failure => .halt machine failure

/-- The machine at the start of a run. What it has scanned, stored and passed over for stays. -/
def start (machine : Machine) : Machine :=
  { machine with
    index := 0
    context := { machine.context with store := machine.context.store.reset } }

end Machine

end LineScript
