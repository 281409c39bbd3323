import LineEditor.Failure

/-!
# What a program is attached to

Editing needs a terminal at both ends.  `Attachment.isInteractive` tells whether there is one, and
`Attachment.requireTerminal` says what is missing.
-/

set_option autoImplicit false

namespace LineEditor

/-- The two ends of a program. -/
structure Attachment where
  inputIsTerminal : Bool
  outputIsTerminal : Bool
  deriving DecidableEq, Repr

namespace Attachment

/-- Are both ends terminals? -/
def isInteractive (attachment : Attachment) : Bool :=
  attachment.inputIsTerminal && attachment.outputIsTerminal

/-- There is nothing to draw on. -/
def terminalUnavailable : Failure where
  severity := .critical
  category := .backend
  code := "TERMINAL_UNAVAILABLE"
  message := "Standard output is not a terminal"

/-- Drawing needs a terminal as output. -/
def requireTerminal (attachment : Attachment) : Except Failure Unit :=
  if attachment.outputIsTerminal then .ok () else .error terminalUnavailable

end Attachment

end LineEditor
