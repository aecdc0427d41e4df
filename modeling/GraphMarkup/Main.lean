import GraphMarkup.CommandLine.Run

/-!
# The program

The program gathers what a run may read, lets the run decide everything, and passes on what it
wrote. The result is gathered before any of it is passed on; if the standard output then refuses
it, the run is repeated with an output that refuses everything for the same reason, which gives
the remarks that belong to that.
-/

namespace GraphMarkup.CommandLine

/-- The number and the words of a system's error. -/
def systemError? : IO.Error → Option (UInt32 × String)
  | .otherError code words | .resourceBusy code words | .resourceVanished code words
  | .unsupportedOperation code words | .hardwareFault code words
  | .unsatisfiedConstraints code words | .illegalOperation code words
  | .protocolError code words | .timeExpired code words => some (code, words)
  | .interrupted _ code words | .noFileOrDirectory _ code words => some (code, words)
  | .alreadyExists _ code words | .invalidArgument _ code words
  | .permissionDenied _ code words | .resourceExhausted _ code words
  | .inappropriateType _ code words | .noSuchThing _ code words => some (code, words)
  | .unexpectedEof | .userError _ => none

/-- The fault that an error stands for. Some of the errors that are met while a file is opened
carry their number with a minus sign. -/
def faultOf (e : IO.Error) : Fault :=
  match systemError? e with
  | some (code, words) => .ofSystem (if code < 0x80000000 then code else 0 - code).toNat words
  | none => .refused (toString e)

/-- The bytes of a file, or why it cannot be read. -/
def readBytes (path : String) : IO (Except Fault Bytes) := do
  try
    return .ok (← IO.FS.readBinFile path).toList
  catch e =>
    return .error (faultOf e)

/-- The world as far as some arguments need it. -/
def gather (args : List String) : IO World := do
  match Request.ofArguments args with
  | .run i =>
    let files ← i.files.mapM fun path => return (path, ← readBytes path)
    let stdin ← if i.readsStdin then (← IO.getStdin).readBinToEnd else pure .empty
    return ⟨fun path => (files.lookup path).getD (.error .noSuchFile), stdin.toList⟩
  | _ => return ⟨fun _ => .error .noSuchFile, []⟩

/-- Passes bytes on, and gives the fault if that fails. -/
def passOn (bytes : Array UInt8) : IO (Option Fault) := do
  try
    let stdout ← IO.getStdout
    stdout.write ⟨bytes⟩
    stdout.flush
    return none
  catch e =>
    return some (faultOf e)

end GraphMarkup.CommandLine

open GraphMarkup GraphMarkup.CommandLine

def main (args : List String) : IO UInt32 := do
  let world ← gather args
  let (outcome, bytes) := execute Sink.recorder world args #[]
  let outcome ← match ← passOn bytes with
    | none => pure outcome
    | some fault => pure (execute (Sink.refusing fault) world args #[]).1
  (← IO.getStderr).putStr outcome.stderr
  return UInt32.ofNat outcome.status
