/-!
# Failures

Every operation of the library that can fail reports a `Failure`: how serious it is, which part of
the editor it concerns, a code for programs and a message for people.

* `Failure.endOfInput` — the one failure that only says that the input is over;
  `Failure.isEndOfInput` recognises it by category and code, whatever its message.
* `IoFault` — what a read or a write of the surrounding system reports;
  `IoFault.toFailure` makes a failure of it, and an unexpected end becomes the end of the input.
-/

set_option autoImplicit false

namespace LineEditor

/-! ## Severities and categories -/

/-- How serious a failure is. -/
inductive Severity where
  /-- worth knowing, nothing is lost -/
  | info
  /-- editing goes on in a reduced way -/
  | warning
  /-- the operation failed -/
  | error
  /-- interactive editing is impossible -/
  | critical
  deriving DecidableEq, Repr

namespace Severity

/-- All severities, the mildest first. -/
def ascending : List Severity := [info, warning, error, critical]

/-- The severity as messages print it. -/
def label : Severity → String
  | info => "INFO"
  | warning => "WARN"
  | error => "ERROR"
  | critical => "CRITICAL"

end Severity

/-- The part of the editor that a failure concerns. -/
inductive Category where
  /-- the terminal could not be found or set up -/
  | backend
  /-- switching between raw and normal mode failed -/
  | mode
  /-- a line could not grow -/
  | allocation
  /-- an index lies outside a line -/
  | bounds
  /-- reading or writing failed -/
  | io
  /-- the input has ended -/
  | input
  /-- something that the library itself ought to exclude -/
  | internal
  deriving DecidableEq, Repr

/-- The category as messages print it. -/
def Category.label : Category → String
  | .backend => "Backend"
  | .mode => "Mode"
  | .allocation => "Allocation"
  | .bounds => "Bounds"
  | .io => "IO"
  | .input => "Input"
  | .internal => "Internal"

/-! ## Failures -/

/-- A failed operation. -/
structure Failure where
  severity : Severity := .error
  category : Category
  code : String
  message : String
  deriving DecidableEq, Repr

namespace Failure

/-- The code of `Failure.endOfInput`. -/
def endOfInputCode : String := "END_OF_INPUT"

/-- The input has ended. -/
def endOfInput : Failure where
  category := .input
  code := endOfInputCode
  message := "Input stream has ended"

/-- Does the failure only say that the input has ended? -/
def isEndOfInput (failure : Failure) : Bool :=
  failure.category = .input ∧ failure.code = endOfInputCode

theorem isEndOfInput_endOfInput : endOfInput.isEndOfInput = true := by decide

/-- Does `part` stand somewhere in a row of characters? -/
def occursIn (part : List Char) : List Char → Bool
  | [] => part.isEmpty
  | c :: rest => part.isPrefixOf (c :: rest) || occursIn part rest

/-- Does `text` occur in the message? -/
def mentions (failure : Failure) (text : String) : Bool :=
  occursIn text.toList failure.message.toList

/-- The failure as one line of text: severity, category, code and message. -/
def describe (failure : Failure) : String :=
  "[" ++ failure.severity.label ++ "] " ++ failure.category.label ++ "(" ++ failure.code ++ "): " ++
    failure.message

end Failure

/-! ## Faults of the surrounding system -/

/-- The kinds of fault that a read or a write of the surrounding system can report. -/
inductive IoFault.Kind where
  | notFound
  | permissionDenied
  | connectionReset
  | brokenPipe
  | wouldBlock
  | invalidInput
  | invalidData
  | timedOut
  | writeZero
  /-- the call was broken off and may be made again -/
  | interrupted
  /-- the data ended before the call had all it wanted -/
  | unexpectedEnd
  | other
  deriving DecidableEq, Repr

/-- What a fault of this kind says when it has no text of its own. -/
def IoFault.Kind.text : IoFault.Kind → String
  | .notFound => "entity not found"
  | .permissionDenied => "permission denied"
  | .connectionReset => "connection reset"
  | .brokenPipe => "broken pipe"
  | .wouldBlock => "operation would block"
  | .invalidInput => "invalid input parameter"
  | .invalidData => "invalid data"
  | .timedOut => "timed out"
  | .writeZero => "write zero"
  | .interrupted => "operation interrupted"
  | .unexpectedEnd => "unexpected end of file"
  | .other => "other error"

/-- A fault of a read or a write. -/
structure IoFault where
  kind : IoFault.Kind
  text : String := kind.text
  deriving DecidableEq, Repr

namespace IoFault

/-- A line whose bytes are no text. -/
def notText : IoFault where
  kind := .invalidData
  text := "stream did not contain valid UTF-8"

/-- The failure that a fault amounts to: an unexpected end is the end of the input, and every other
fault keeps its text. -/
def toFailure (fault : IoFault) : Failure :=
  match fault.kind with
  | .unexpectedEnd => .endOfInput
  | _ => { category := .io, code := "IO_ERROR", message := fault.text }

end IoFault

end LineEditor
