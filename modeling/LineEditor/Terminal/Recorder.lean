import LineEditor.Terminal.Vt100

/-!
# A console that records

A `Recorder` is a console without a device.  It writes down every call that succeeds, answers
questions from a list made beforehand, and lets the calls fail that a plan names.

* `Recorder.Call` — the kinds of call; each is counted from one, failed calls too.
* `Recorder.fails` — the plan of failures.  A failing call changes nothing and is not written down.
* `Recorder.transcript` — what was written down, in order, neighbouring writes joined.
-/

set_option autoImplicit false

namespace LineEditor

/-- The kinds of call that a console takes. -/
inductive Recorder.Call where
  | write
  | flush
  | size
  | cursor
  | moveTo
  | enableRaw
  | disableRaw
  deriving DecidableEq, Repr

/-- What a recorder writes down. -/
inductive Recorder.Entry where
  | written (text : String)
  | flushed
  | sizeAsked
  | cursorAsked
  | moved (position : Position)
  | rawEnabled
  | rawDisabled
  deriving DecidableEq, Repr

/-- How often each kind of call was made. -/
structure Recorder.Counts where
  write : Nat := 0
  flush : Nat := 0
  size : Nat := 0
  cursor : Nat := 0
  moveTo : Nat := 0
  enableRaw : Nat := 0
  disableRaw : Nat := 0
  deriving DecidableEq, Repr

namespace Recorder.Counts

/-- How often a kind of call was made. -/
def of (counts : Counts) : Call → Nat
  | .write => counts.write
  | .flush => counts.flush
  | .size => counts.size
  | .cursor => counts.cursor
  | .moveTo => counts.moveTo
  | .enableRaw => counts.enableRaw
  | .disableRaw => counts.disableRaw

/-- Count one more call. -/
def add (counts : Counts) : Call → Counts
  | .write => { counts with write := counts.write + 1 }
  | .flush => { counts with flush := counts.flush + 1 }
  | .size => { counts with size := counts.size + 1 }
  | .cursor => { counts with cursor := counts.cursor + 1 }
  | .moveTo => { counts with moveTo := counts.moveTo + 1 }
  | .enableRaw => { counts with enableRaw := counts.enableRaw + 1 }
  | .disableRaw => { counts with disableRaw := counts.disableRaw + 1 }

end Recorder.Counts

/-- A console that writes down what it is asked. -/
structure Recorder where
  size : Size
  /-- where the cursor is; writing does not move it -/
  cursor : Position := Position.origin
  /-- the sizes to answer with before the last one stays -/
  sizes : List Size := []
  /-- the places to answer with before the last one stays -/
  positions : List Position := []
  /-- is the input mode raw? -/
  raw : Bool := false
  /-- does the call of this kind with this number fail? -/
  fails : Recorder.Call → Nat → Bool := fun _ _ => false
  /-- what a failing call to the device says, if not its own failure -/
  failure : Option Failure := none
  counts : Recorder.Counts := {}
  /-- what was written down, the latest first -/
  log : List Recorder.Entry := []

namespace Recorder

/-- What a failing write or flush reports. -/
def pipeClosed : IoFault where
  kind := .brokenPipe
  text := "pipe closed"

/-- What a failing call to the device says on its own. -/
def ownFailure : Call → Failure
  | .write => { category := .io, code := "WRITE_FAILED", message := "write failed" }
  | .flush => { category := .io, code := "WRITE_FAILED", message := "flush failed" }
  | .size => { category := .io, code := "SIZE_QUERY_FAILED", message := "size failed" }
  | .cursor => { category := .io, code := "CURSOR_QUERY_FAILED", message := "cursor failed" }
  | .moveTo => { category := .io, code := "CURSOR_MOVE_FAILED", message := "move_to failed" }
  | .enableRaw => { category := .mode, code := "RAW_MODE_FAILED", message := "enable_raw failed" }
  | .disableRaw =>
    { category := .mode, code := "NORMAL_MODE_FAILED", message := "disable_raw failed" }

/-- Count a call.  If the plan names it, it fails with `report`; otherwise `entry` is written down,
and `answer` gives the value and the change. -/
def take {ε α : Type} (call : Call) (report : ε) (entry : Entry)
    (answer : Recorder → α × Recorder) : EStateM ε Recorder α := fun recorder =>
  let counted := { recorder with counts := recorder.counts.add call }
  if recorder.fails call (counted.counts.of call) then .error report counted
  else
    let (value, next) := answer { counted with log := entry :: counted.log }
    .ok value next

/-- A call to the device. -/
def device {α : Type} (call : Call) (entry : Entry) (answer : Recorder → α × Recorder) :
    Action Recorder α := fun recorder =>
  take call (recorder.failure.getD (ownFailure call)) entry answer recorder

/-- The next size to answer with. -/
def nextSize (recorder : Recorder) : Size × Recorder :=
  match recorder.sizes with
  | [] => (recorder.size, recorder)
  | size :: sizes => (size, { recorder with size, sizes })

/-- The next place to answer with. -/
def nextPosition (recorder : Recorder) : Position × Recorder :=
  match recorder.positions with
  | [] => (recorder.cursor, recorder)
  | cursor :: positions => (cursor, { recorder with cursor, positions })

instance : Console Recorder where
  write text := take .write pipeClosed (.written text) fun recorder => ((), recorder)
  flush := take .flush pipeClosed .flushed fun recorder => ((), recorder)
  size := device .size .sizeAsked nextSize
  cursor := device .cursor .cursorAsked nextPosition
  moveTo position := device .moveTo (.moved position) fun recorder =>
    ((), { recorder with cursor := position })
  enableRawMode := device .enableRaw .rawEnabled fun recorder => ((), { recorder with raw := true })
  disableRawMode := device .disableRaw .rawDisabled fun recorder =>
    ((), { recorder with raw := false })

/-- Put an entry in front of later ones; a write joins the write that follows it. -/
def precede (later : List Entry) (entry : Entry) : List Entry :=
  match entry, later with
  | .written text, .written more :: others => .written (text ++ more) :: others
  | entry, later => entry :: later

/-- What was written down, in order, neighbouring writes joined. -/
def transcript (recorder : Recorder) : List Entry := recorder.log.foldl precede []

/-- The recorder with nothing written down. -/
def forget (recorder : Recorder) : Recorder := { recorder with log := [] }

end Recorder

end LineEditor
