import LineScript.Command.Interpreter

namespace LineScript.Command

partial def readAll (stream : IO.FS.Stream) (read : ByteArray) : IO ByteArray := do
  let chunk ← stream.read 65536
  if chunk.isEmpty then return read else readAll stream (read ++ chunk)

def writeBytes (stream : IO.FS.Stream) (text : Bytes) : IO Unit := do
  stream.write ⟨text.toArray⟩
  stream.flush

def writeLog (stdout stderr : IO.FS.Stream) (streams : Streams) : IO Streams := do
  for event in streams.events do
    match event with
    | .out text => writeBytes stdout text
    | .err text => writeBytes stderr text
    | _ => pure ()
  return { streams with log := [] }

def writeMachine (stdout stderr : IO.FS.Stream) (machine : Machine) : IO Machine := do
  let streams ← writeLog stdout stderr machine.context.streams
  return { machine with context := { machine.context with streams } }

/-- Runs a machine until it halts, and writes its output on the way. -/
partial def runMachine (stdout stderr : IO.FS.Stream) (config : Config) (machine : Machine) :
    IO (Machine × Option Failure) := do
  match machine.steps config 1000 with
  | .next machine => runMachine stdout stderr config (← writeMachine stdout stderr machine)
  | .halt machine failure => return (← writeMachine stdout stderr machine, failure)

def runToEnd (stdout stderr : IO.FS.Stream) (session : Session) : IO Int := do
  let (machine, failure) ← runMachine stdout stderr session.config session.machine.start
  let (session, failure) := { session with machine }.finish failure
  let _ ← writeLog stdout stderr session.streams
  return session.status failure

def openReason : IO.Error → String
  | .noFileOrDirectory .. => "no such file or directory"
  | .permissionDenied .. => "permission denied"
  | .invalidArgument .. => "invalid argument"
  | error => toString error

/-- Reads a script, or tells why it cannot be opened. A directory opens and cannot be read. -/
def readScript (path : String) : IO (Except Bytes Source) := do
  try
    let content ← IO.FS.readBinFile path
    return .ok (Source.ofBytes content.data.toList)
  catch
    | .inappropriateType .. => return .ok [.failed (cannotRead (utf8 path))]
    | error => return .error (cannotOpen (utf8 path) (openReason error))

def leave (stdout stderr : IO.FS.Stream) (finished : Finished) : IO Int := do
  writeBytes stdout finished.stdout
  writeBytes stderr finished.stderr
  return finished.status

def serve (stdout stderr : IO.FS.Stream) (arguments : List String) : IO Int := do
  let stdin := do return (← readAll (← IO.getStdin) .empty).data.toList
  match Request.parse (arguments.map utf8) with
  | .error error => leave stdout stderr (refused error)
  | .ok (.tell page) => leave stdout stderr (told page)
  | .ok (.script ..) => throw (.userError "there is no script for this shell")
  | .ok (.run none debug interactive) =>
      runToEnd stdout stderr (stdinSession (← stdin) debug interactive)
  | .ok (.run (some path) debug interactive) =>
      match ← readScript (String.ofList (Text.decode path)) with
      | .error reason => leave stdout stderr (unopened path reason)
      | .ok script => runToEnd stdout stderr (scriptSession path script (← stdin) debug interactive)

end LineScript.Command

def main (arguments : List String) : IO UInt32 := do
  let status ← LineScript.Command.serve (← IO.getStdout) (← IO.getStderr) arguments
  return (status % 256).toNat.toUInt32
