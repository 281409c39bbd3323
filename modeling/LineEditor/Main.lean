import LineEditor.Echo

/-!
# The executable

Opens the log and writes to it, reads the whole of standard input, runs the echo program on it, and
prints what the program prints.
-/

set_option autoImplicit false

namespace LineEditor.Executable

/-- A text of the system and its number. -/
def numbered (text : String) (number : UInt32) : String :=
  text ++ " (os error " ++ toString number ++ ")"

/-- What the system says about a file that it does not open or write. -/
def systemText : IO.Error → String
  | .noFileOrDirectory _ code details => numbered details code
  | .permissionDenied _ code details => numbered details code
  | .inappropriateType _ code details => numbered details code
  | .invalidArgument _ code details => numbered details code
  | .resourceExhausted _ code details => numbered details code
  | .resourceBusy code details => numbered details code
  | .noSuchThing _ code details => numbered details code
  | .hardwareFault code details => numbered details code
  | .unsupportedOperation code details => numbered details code
  | .otherError code details => numbered details code
  | error => toString error

/-- Write events to an open log; tells what went wrong, if anything did. -/
def write (log : IO.FS.Handle) (events : List LogFilter.Event) : IO (Option String) := do
  try
    for event in events do
      log.putStr event.line
      log.flush
    return none
  catch error =>
    return some (systemText error)

/-- Open a log for appending and write events to it. -/
def openLog (path : String) (events : List LogFilter.Event) : IO Echo.LogAccess := do
  try
    let log ← IO.FS.Handle.mk path .append
    return .granted (← write log events)
  catch error =>
    return .denied (systemText error)

/-- The variables that the program reads. -/
def variableNames : List String :=
  [Echo.logVariable, Echo.logFileVariable, Settings.capacityVariable, Settings.inputVariable]

/-- Run the echo program on standard input. -/
def run : IO UInt32 := do
  let values ← variableNames.mapM fun name => return (name, ← IO.getEnv name)
  let lookup (name : String) : Option String := (values.lookup name).join
  let access ← match lookup Echo.logVariable, Echo.logPath? lookup with
    | some filter, some path => openLog path (Echo.logged lookup filter)
    | _, _ => pure (.granted none)
  let input ← match access with
    | .denied _ => pure ByteArray.empty
    | .granted _ => (← IO.getStdin).readBinToEnd
  let outcome := Echo.run lookup (fun _ => access) (Feed.ofBytes input.toList)
  (← IO.getStdout).putStr outcome.output
  (← IO.getStderr).putStr outcome.errors
  return UInt32.ofNat outcome.exitCode

end LineEditor.Executable

/-- The echo program as a command. -/
def main : IO UInt32 := LineEditor.Executable.run
