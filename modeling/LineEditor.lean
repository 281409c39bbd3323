import LineEditor.Attachment
import LineEditor.CharStream
import LineEditor.Echo
import LineEditor.Input.KeyEvent
import LineEditor.Main
import LineEditor.Reader
import LineEditor.Terminal.Recorder
import LineEditor.Terminal.Screen
import LineEditor.Proofs.Action.Outcomes
import LineEditor.Proofs.Editor
import LineEditor.Proofs.Input.Codes
import LineEditor.Proofs.Input.Enters
import LineEditor.Proofs.Input.Gathering
import LineEditor.Proofs.Input.Segments
import LineEditor.Proofs.Input.Sequences
import LineEditor.Proofs.Input.Spelling
import LineEditor.Proofs.Line.Capacity
import LineEditor.Proofs.Line.Operations
import LineEditor.Proofs.Line.Slots
import LineEditor.Proofs.Line.Storage
import LineEditor.Proofs.Reader.CleanText
import LineEditor.Proofs.Reader.Closing
import LineEditor.Proofs.Reader.ConsoleMode
import LineEditor.Proofs.Reader.Lines
import LineEditor.Proofs.Reader.Noting
import LineEditor.Proofs.Reader.OneLine
import LineEditor.Proofs.Reader.RawMode
import LineEditor.Proofs.Reader.ReadBack
import LineEditor.Proofs.Reader.SameText
import LineEditor.Proofs.Reader.TypedText
import LineEditor.Proofs.Reader.Visibility
import LineEditor.Proofs.Screen.Cursor
import LineEditor.Proofs.Screen.Puts
import LineEditor.Proofs.Screen.Redraw
import LineEditor.Proofs.Screen.Repaint
import LineEditor.Proofs.Session.Driving
import LineEditor.Proofs.Session.Effects
import LineEditor.Proofs.Session.Operating
import LineEditor.Proofs.Session.Refinement
import LineEditor.Proofs.Session.Safety
import LineEditor.Proofs.Session.Slots
import LineEditor.Proofs.Session.Waiting
import LineEditor.Proofs.Stream.Asking
import LineEditor.Proofs.Stream.Delivery
import LineEditor.Proofs.Stream.Ending
import LineEditor.Proofs.Stream.Indexed
import LineEditor.Proofs.Stream.Lookahead
import LineEditor.Proofs.Stream.Sources
import LineEditor.Proofs.Terminal.Calls
import LineEditor.Proofs.Terminal.Consoles
import LineEditor.Proofs.Terminal.Consulting
import LineEditor.Proofs.Terminal.Failures
import LineEditor.Proofs.Terminal.Folding
import LineEditor.Proofs.Terminal.Logged
import LineEditor.Proofs.Text.Cells
import LineEditor.Proofs.Text.Classification
import LineEditor.Proofs.Text.Composition
import LineEditor.Proofs.Text.Pieces
