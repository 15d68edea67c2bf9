import Sim6809.CommandLine.Execute

/-!
The program: reads the files that the command line names, hands them to the library and prints its
answer.
-/
namespace Sim6809

/-- The reason behind a failed read, with the message and the number that the system gives. -/
def readErrorOf (e : IO.Error) : ReadError :=
  let reason (code : UInt32) (details : String) : ReadError :=
    .other (details ++ " (os error " ++ toString code ++ ")")
  match e with
  | .noFileOrDirectory .. => .notFound
  | .permissionDenied _ code details => reason code details
  | .inappropriateType _ code details => reason code details
  | .invalidArgument _ code details => reason code details
  | .resourceExhausted _ code details => reason code details
  | .hardwareFault code details => reason code details
  | .otherError code details => reason code details
  | e => .other (toString e)

def readFile (path : String) : IO (Except ReadError ByteArray) := do
  try
    return .ok (← IO.FS.readBinFile path)
  catch e =>
    return .error (readErrorOf e)

/-- The contents of the given paths; any other path counts as missing. -/
def readFiles (paths : List String) : IO Files := do
  let contents ← paths.mapM fun path => return (path, ← readFile path)
  return fun path => (contents.lookup path).getD (.error .notFound)

def configDirectory : IO (Option String) := do
  match ← IO.getEnv "XDG_CONFIG_HOME" with
  | some directory => return some directory
  | none => return (← IO.getEnv "HOME").map (· ++ "/.config")

/-- Carries out an invocation and prints its answer; gives the exit code. -/
def runInvocation (invocation : CommandLine.Invocation) : IO UInt32 := do
  let directory ← configDirectory
  let files ← readFiles (CommandLine.filesOf directory invocation)
  let start ← IO.monoNanosNow
  let response ← IO.lazyPure fun _ => CommandLine.respond files directory invocation
  let stop ← IO.monoNanosNow
  IO.print (response.text (stop - start))
  match response.failure with
  | none => return 0
  | some message =>
    IO.eprintln ("error: " ++ message)
    return 1

end Sim6809

def main (arguments : List String) : IO UInt32 := do
  match Sim6809.CommandLine.parse? arguments with
  | some invocation => Sim6809.runInvocation invocation
  | none =>
    IO.eprintln "usage: [OPTIONS] <run|step|disasm|dump|registers> <IMAGE>"
    return 2
