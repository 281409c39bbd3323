import LineEditor.LogFilter
import LineEditor.PlainLines
import LineEditor.Settings

/-!
# The echo program

The program prints the lines of its input, each of them ended by a line feed.  It stops with an
error report at a line that it cannot read, or before the first line if the log that it was asked to
keep cannot be opened.  Once the log is open it says which directives of the log's filter it passes
over and which events it could not write.

* `Echo.run` — the program as a function from its surroundings and its input to what it prints.
* `Echo.logPath?` — the log that the surroundings ask for.
* `Echo.logged` — what the program writes to the log.
-/

set_option autoImplicit false

namespace LineEditor.Echo

/-! ## The log -/

/-- The variable that asks for a log and holds its filter. -/
def logVariable : String := "LINETERM_LOG"

/-- The variable that names the file of the log. -/
def logFileVariable : String := "LINETERM_LOG_FILE"

/-- The file of the log if none is named. -/
def defaultLogFile : String := "lineterm.log"

/-- The file of the log, if one is asked for. -/
def logPath? (lookup : String → Option String) : Option String :=
  (lookup logVariable).map fun _ => (lookup logFileVariable).getD defaultLogFile

/-- What the system lets the program do with the file of the log. -/
inductive LogAccess where
  /-- it cannot be opened -/
  | denied (cause : String)
  /-- it is open; `fault` is what the system says to every write, if it takes none -/
  | granted (fault : Option String)
  deriving DecidableEq, Repr

/-- What the program tells its log: the variables that it does not understand, and its settings when
it starts. -/
def events (lookup : String → Option String) : List LogFilter.Event :=
  (Settings.passedOver lookup).map
      (fun (name, value) =>
        { level := .warn
          target := "lineterm::config"
          message := "ignoring invalid " ++ name
          fields := [("value", value)] }) ++
    [{ level := .info
       target := "lineterm"
       message := "starting"
       fields := [("config", (Settings.ofLookup lookup).describe)] }]

/-- The events that the filter of the log keeps. -/
def logged (lookup : String → Option String) (filter : String) : List LogFilter.Event :=
  (events lookup).filter (LogFilter.keeps (LogFilter.rules filter))

/-- What is said about an event that cannot be written. -/
def writeNotice (fault : String) : String :=
  "[tracing-subscriber] Unable to write an event to the Writer for this Subscriber! Error: " ++
    fault ++ "\n\n"

/-- What is said about the log once it is open: about its filter, and about events that cannot be
written. -/
def logNotices (lookup : String → Option String) (fault : Option String) (filter : String) :
    String :=
  LogFilter.notices filter ++
    match fault with
    | none => ""
    | some fault => String.join ((logged lookup filter).map fun _ => writeNotice fault)

/-! ## The program -/

/-- How the program ended and what it printed. -/
structure Outcome where
  exitCode : Nat
  output : String
  errors : String
  deriving DecidableEq, Repr

/-- The report of an error: what was being done, and why it failed. -/
def report (activity cause : String) : String :=
  "Error: " ++ activity ++ "\n\nCaused by:\n    " ++ cause ++ "\n"

/-- Print lines behind what is printed already, to the end of the input or to a failure. -/
def printLines (printed : String) (lines : PlainLines) : String × Option Failure :=
  if lines.exhausted then (printed, none)
  else
    match _ : PlainLines.readLine lines with
    | .ok line lines => printLines (printed ++ line) lines
    | .error failure _ => (printed, if failure.isEndOfInput then none else some failure)
termination_by lines.feed.items.length
decreasing_by exact PlainLines.length_of_readLine ‹_›

/-- Print the lines of the input. -/
def echo (input : Feed) : Outcome :=
  match printLines "" { feed := input } with
  | (output, none) => { exitCode := 0, output, errors := "" }
  | (output, some failure) =>
    { exitCode := 1, output, errors := report "reading a line" failure.describe }

/-- The outcome with something said before all errors. -/
def Outcome.after (outcome : Outcome) (said : String) : Outcome :=
  { outcome with errors := said ++ outcome.errors }

/-- The whole program.  `openLog` opens the log. -/
def run (lookup : String → Option String) (openLog : String → LogAccess) (input : Feed) :
    Outcome :=
  match lookup logVariable, logPath? lookup with
  | some filter, some path =>
    match openLog path with
    | .denied cause =>
      { exitCode := 1, output := "", errors := report ("opening log file " ++ path) cause }
    | .granted fault => (echo input).after (logNotices lookup fault filter)
  | _, _ => echo input

end LineEditor.Echo
