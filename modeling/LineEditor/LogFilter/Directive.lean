import LineEditor.LogFilter.Pattern
import LineEditor.Text.Numeral

/-!
# Directives

A directive of a log filter has one of the forms

* `level`,
* `target` or `target=level`,
* `target[span]` or `target[span]=level`, both also without the target and with a field of the span
  in braces behind its name, a name or a name and a pattern of its value.

* `Rule` — what a directive asks for.
* `Directive.rule` — the rule that a directive stands for, or why it stands for none.
-/

set_option autoImplicit false

namespace LineEditor.LogFilter

/-! ## Levels -/

/-- How much a log keeps: nothing, or what is at least as grave as the name says. -/
inductive Level where
  | off
  | error
  | warn
  | info
  | debug
  | trace
  deriving DecidableEq, Repr

namespace Level

/-- The place of a level, the one that keeps nothing at zero. -/
def rank : Level → Nat
  | off => 0
  | error => 1
  | warn => 2
  | info => 3
  | debug => 4
  | trace => 5

/-- The name of a level. -/
def name : Level → String
  | off => "off"
  | error => "error"
  | warn => "warn"
  | info => "info"
  | debug => "debug"
  | trace => "trace"

/-- All levels, each at its place. -/
def ascending : List Level := [off, error, warn, info, debug, trace]

/-- The level that a text stands for, by its name in letters of any case or by its place. -/
def ofText? (text : List Char) : Option Level :=
  match Text.count? trace.rank text with
  | some place => ascending[place]?
  | none => ascending.find? fun level => text.map Char.toLower = level.name.toList

end Level

/-! ## Rules -/

/-- Why a directive stands for no rule. -/
inductive Refusal where
  /-- it has none of the forms -/
  | form
  /-- it names an unknown level -/
  | level
  /-- a field has a pattern that cannot be used -/
  | field (fault : Pattern.Fault)
  deriving DecidableEq, Repr

/-- The reason as notices print it. -/
def Refusal.text : Refusal → String
  | .form => "invalid filter directive"
  | .level =>
    "error parsing level filter: expected one of \"off\", \"error\", \"warn\", \"info\", " ++
      "\"debug\", \"trace\", or a number 0-5"
  | .field fault => "invalid field filter: " ++ fault.text

/-- A field that a rule asks for. -/
structure Field where
  name : String
  /-- must it have a certain value? -/
  hasPattern : Bool
  deriving DecidableEq, Repr

/-- What a directive asks for. -/
structure Rule where
  /-- what the target of an event must begin with -/
  target : Option String := none
  /-- does the rule speak of a span by its name? -/
  namesSpan : Bool := false
  field : Option Field := none
  /-- how much is kept of what the rule speaks of -/
  level : Level := .trace
  deriving DecidableEq, Repr

/-! ## Places in a directive -/

/-- A directive as it is written, and its text without the blanks around it. -/
structure Directive where
  written : List Char
  text : List Char
  deriving DecidableEq, Repr

/-- The number of bytes of a text. -/
def bytes : List Char → Nat
  | [] => 0
  | c :: rest => c.utf8Size + bytes rest

/-- The characters of a text that begin between two places, if the text begins at `start`. -/
def between (first last start : Nat) : List Char → List Char
  | [] => []
  | c :: rest =>
    let others := between first last (start + c.utf8Size) rest
    if first ≤ start ∧ start < last then c :: others else others

namespace Directive

/-- The directive that a part of a filter is. -/
def ofPart (part : String) : Directive where
  written := part.toList
  text := (Text.trim part).toList

/-- The place in the text where its end `rest` begins. -/
def place (directive : Directive) (rest : List Char) : Nat := bytes directive.text - bytes rest

/-- What is written between two places.  Places are those of the text, so behind blanks everything is
found too early. -/
def cut (directive : Directive) (first last : Nat) : List Char :=
  between first last 0 directive.written

/-- What is written from the place on where the end `rest` of the text begins. -/
def cutFrom (directive : Directive) (rest : List Char) : List Char :=
  directive.cut (directive.place rest) (bytes directive.written)

/-! ## Reading a directive -/

/-- The rule with the level at the end of the directive; no text at all asks for everything. -/
def withLevel (directive : Directive) (rule : Rule) (rest : List Char) : Except Refusal Rule :=
  match directive.cutFrom rest with
  | [] => .ok { rule with level := .trace }
  | text =>
    match Level.ofText? text with
    | some level => .ok { rule with level }
    | none => .error .level

/-- The rule behind the bracket that closes a span. -/
def closeSpan (directive : Directive) (rule : Rule) : List Char → Except Refusal Rule
  | [] => .ok rule
  | '=' :: rest => directive.withLevel rule rest
  | _ => .error .form

end Directive

/-- What is wrong with the pattern of a value.  A number may have a sign that no other pattern begins
with. -/
def valueFault? (text : List Char) : Option Pattern.Fault :=
  match text with
  | '+' :: rest => if Text.isDecimal rest then none else some .unusable
  | _ => Pattern.fault? text

/-- A field: a name, or a name and the pattern of its value; what follows a second equals sign does
not count. -/
def Field.ofText (text : List Char) : Except Refusal Field :=
  let name := String.ofList (text.takeWhile (· ≠ '='))
  match text, text.dropWhile (· ≠ '=') with
  | [], _ => .error .form
  | _, [] => .ok { name, hasPattern := false }
  | _, _ :: rest =>
    match valueFault? (rest.takeWhile (· ≠ '=')) with
    | some fault => .error (.field fault)
    | none => .ok { name, hasPattern := true }

namespace Directive

/-- The rule behind the bracket that opens a span. -/
def openSpan (directive : Directive) (target : Option String) (text : List Char) :
    Except Refusal Rule :=
  match text.dropWhile fun c => c ≠ ']' ∧ c ≠ '{' with
  | [] => .error .form
  | ']' :: rest => directive.closeSpan { target, namesSpan := true } rest
  | brace :: fields =>
    match fields.dropWhile (· ≠ '}') with
    | [] => .error .form
    | brace' :: rest =>
      match Field.ofText (directive.cut (directive.place fields) (directive.place (brace' :: rest)))
      with
      | .error refusal => .error refusal
      | .ok field =>
        match rest with
        | ']' :: rest =>
          directive.closeSpan
            { target, namesSpan := text.head? ≠ some brace, field := some field } rest
        | _ => .error .form

/-- May a level or a target begin with this character? -/
def isFirstOfTarget (c : Char) : Bool :=
  c == '-' || c == ':' || c == '_' || Text.isAlphanumeric c

/-- The rule that a directive stands for. -/
def rule (directive : Directive) : Except Refusal Rule :=
  match directive.text with
  | [] => .error .form
  | '[' :: rest => directive.openSpan none rest
  | c :: rest =>
    if isFirstOfTarget c then
      let ending := rest.dropWhile fun c => c ≠ '=' ∧ c ≠ '['
      let target := some (String.ofList (directive.cut 0 (directive.place ending)))
      match ending with
      | [] =>
        match Level.ofText? directive.written with
        | some level => .ok { level }
        | none => .ok { target := some (String.ofList directive.written) }
      | '=' :: rest => directive.withLevel { target } rest
      | _ :: rest => directive.openSpan target rest
    else .error .form

end Directive

end LineEditor.LogFilter
