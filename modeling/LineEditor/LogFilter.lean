import LineEditor.LogFilter.Directive

/-!
# Log filters

A log filter says which events a log keeps.  It is a row of directives with commas between them.  A
directive that stands for no rule is passed over with a notice.

* `LogFilter.rules`, `LogFilter.notices` — the rules of a filter, and what is said about the
  directives that are passed over.
* `LogFilter.keeps` — does a log with these rules keep an event?
-/

set_option autoImplicit false

namespace LineEditor.LogFilter

/-! ## Parts -/

/-- The texts between the commas of a text. -/
def betweenCommas : List Char → List (List Char)
  | [] => [[]]
  | c :: rest =>
    if c = ',' then [] :: betweenCommas rest
    else
      match betweenCommas rest with
      | [] => [[c]]
      | first :: others => (c :: first) :: others

/-- The parts of a filter that are directives. -/
def parts (filter : String) : List String :=
  ((betweenCommas filter.toList).filter fun part => !part.isEmpty).map String.ofList

/-- The notice on a part of a filter, if it is passed over. -/
def notice? (part : String) : Option String :=
  match (Directive.ofPart part).rule with
  | .ok _ => none
  | .error refusal => some ("ignoring `" ++ part ++ "`: " ++ refusal.text ++ "\n")

/-- The notices on the parts of a filter that are passed over. -/
def notices (filter : String) : String := String.join ((parts filter).filterMap notice?)

/-- The rule of a log without any other: errors are kept. -/
def defaultRule : Rule := { level := .error }

/-- The rules of a filter. -/
def rules (filter : String) : List Rule :=
  match (parts filter).filterMap fun part => (Directive.ofPart part).rule.toOption with
  | [] => [defaultRule]
  | rules => rules

/-! ## Events -/

/-- Something that a program tells its log, outside of all spans. -/
structure Event where
  level : Level
  /-- the part of the program that tells it -/
  target : String
  message : String
  /-- what else belongs to it, by name -/
  fields : List (String × String) := []
  deriving DecidableEq, Repr

/-- The event as a line of a log. -/
def Event.line (event : Event) : String :=
  event.level.name ++ " " ++ event.target ++ ": " ++ event.message ++
    String.join (event.fields.map fun (name, value) => " " ++ name ++ "=" ++ value) ++ "\n"

/-- The names of what an event has, its message among them. -/
def Event.names (event : Event) : List String := "message" :: event.fields.map Prod.fst

namespace Rule

/-- Does a rule speak of an event?  One that names a span or a value does not: it speaks of what
happens in a span. -/
def speaksOf (rule : Rule) (event : Event) : Bool :=
  !rule.namesSpan &&
    (match rule.field with
      | none => true
      | some field => !field.hasPattern && event.names.contains field.name) &&
    (match rule.target with
      | none => true
      | some target => target.toList.isPrefixOf event.target.toList)

/-- How closely a rule describes what it speaks of: the length of its target, with none below all
others, and then its field. -/
def closeness (rule : Rule) : Nat × Option String :=
  (match rule.target with
    | none => 0
    | some target => target.utf8ByteSize + 1,
   rule.field.map Field.name)

/-- Does the first rule describe what it speaks of at least as closely as the second? -/
def isAsClose (rule other : Rule) : Bool :=
  if rule.closeness.1 = other.closeness.1 then
    match rule.closeness.2, other.closeness.2 with
    | _, none => true
    | none, some _ => false
    | some name, some name' => name' ≤ name
  else other.closeness.1 < rule.closeness.1

end Rule

/-- Of the rules that speak of an event the one that describes it most closely, and of several such
rules the last. -/
def deciding? (rules : List Rule) (event : Event) : Option Rule :=
  (rules.filter (·.speaksOf event)).foldl
    (fun best rule =>
      match best with
      | none => some rule
      | some other => if rule.isAsClose other then some rule else best)
    none

/-- Does a log with these rules keep an event? -/
def keeps (rules : List Rule) (event : Event) : Bool :=
  match deciding? rules event with
  | none => false
  | some rule => event.level.rank ≤ rule.level.rank

end LineEditor.LogFilter
