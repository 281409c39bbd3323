import LineEditor.LogFilter.Pattern.Escape

/-!
# Brackets

A bracket is a set of characters: characters, ranges, named classes and further brackets, and
operators between groups of members.  A mark behind the opening bracket turns the set into its
complement.  Of a set that is well formed only its depth matters.

* `nesting` — the depth of a row of parts: a row of two or more is a part of its own.
* `Bracket.read?` — the depth of a bracket and the text behind it.
-/

set_option autoImplicit false

namespace LineEditor.LogFilter.Pattern

/-- The depth of what is made up of parts with the given depths. -/
def nesting : List Nat → Nat
  | [] => 0
  | [depth] => depth
  | depths => depths.foldl max 0 + 1

namespace Bracket

/-- A bracket that is being read. -/
structure Opened where
  /-- the depth of what stands in front of the last operator, if there is one -/
  left : Option Nat := none
  /-- the depths of the members behind it -/
  members : List Nat := []
  /-- have only dashes been read, so that more of them would be members? -/
  isFresh : Bool := true
  deriving DecidableEq, Repr

namespace Opened

/-- The bracket with one more member. -/
def add (bracket : Opened) (depth : Nat) : Opened :=
  { bracket with members := depth :: bracket.members, isFresh := false }

/-- The depth of what has been read. -/
def depth (bracket : Opened) : Nat :=
  match bracket.left with
  | none => nesting bracket.members
  | some left => max left (nesting bracket.members) + 1

/-- The bracket with one more operator. -/
def combine (bracket : Opened) : Opened :=
  { left := some bracket.depth, members := [], isFresh := false }

end Opened

/-! ## Members -/

/-- Can a set hold this character?  Sets of bytes hold no others, and no table tells which letters
differ in case alone. -/
def holds (flags : Flags) (c : Char) : Bool :=
  if flags.unicode then !flags.foldsCase else c ≤ '\x7f'

/-- The names of classes. -/
def classNames : List String :=
  ["alnum", "alpha", "ascii", "blank", "cntrl", "digit", "graph", "lower", "print", "punct", "space",
    "upper", "word", "xdigit"]

/-- A named class from behind its opening bracket: is it a complement, and the text behind it. -/
def className? : List Char → Option (Bool × List Char)
  | ':' :: text =>
    let (isComplement, text) :=
      match text with
      | '^' :: text => (true, text)
      | text => (false, text)
    match text.dropWhile (· ≠ ':') with
    | ':' :: ']' :: rest =>
      if (classNames.map String.toList).contains (text.takeWhile (· ≠ ':')) then
        some (isComplement, rest)
      else none
    | _ => none
  | _ => none

/-- Can a set hold a named class?  The complement of a set of bytes holds more than characters. -/
def holdsClass (flags : Flags) (isComplement : Bool) : Bool :=
  if flags.unicode then !flags.foldsCase else !isComplement

/-- One character of a bracket, or an escape, and the text behind it. -/
def atom? (flags : Flags) : List Char → Option (Atom × List Char)
  | [] => none
  | '\\' :: rest => escape? flags rest
  | c :: rest => some (.character c false, rest)

/-- Is this a member of a set? -/
def isMember (flags : Flags) : Atom → Bool
  | .character c _ => holds flags c
  | .shorthand isComplement => !flags.unicode && !isComplement
  | _ => false

/-- Are these the ends of a range? -/
def isRange (flags : Flags) : Atom → Atom → Bool
  | .character first _, .character last _ => first ≤ last && holds flags first && holds flags last
  | _, _ => false

/-- The text behind a member, a character or a range.  A dash in front of the closing bracket or of
another dash belongs to no range. -/
def behindMember? (flags : Flags) (text : List Char) : Option (List Char) :=
  (atom? flags text).bind fun (first, rest) =>
    let alone := if isMember flags first then some rest else none
    match behindSpace flags rest with
    | '-' :: ahead =>
      if glance flags ahead = some ']' ∨ glance flags ahead = some '-' then alone
      else
        (atom? flags (behindSpace flags ahead)).bind fun (last, rest) =>
          if isRange flags first last then some rest else none
    | _ => alone

/-! ## Reading -/

/-- What one step of reading leads to. -/
inductive Progress where
  /-- brackets are open, the innermost one apart -/
  | more (inner : Opened) (outer : List Opened) (rest : List Char)
  /-- the outermost bracket is closed -/
  | done (depth : Nat) (rest : List Char)
  deriving DecidableEq, Repr

/-- The text behind the mark of a complement, if there is one.  A set of bytes has no complement. -/
def behindMark? (flags : Flags) (text : List Char) : Option (List Char) :=
  match behindSpace flags text with
  | '^' :: rest => if flags.unicode then some rest else none
  | rest => some rest

/-- The innermost bracket is closed. -/
def close (inner : Opened) (outer : List Opened) (rest : List Char) : Progress :=
  match outer with
  | [] => .done (inner.depth + 1) rest
  | parent :: outer => .more (parent.add (inner.depth + 1)) outer rest

/-- Read a member, an operator or a bracket.  Dashes in front are members, and so is a closing
bracket in front. -/
def step (flags : Flags) (inner : Opened) (outer : List Opened) (text : List Char) :
    Option Progress :=
  match behindSpace flags text with
  | [] => none
  | c :: rest =>
    if c = '-' ∧ inner.isFresh then
      if holds flags '-' then
        some (.more { inner with members := 0 :: inner.members } outer rest)
      else none
    else if c = ']' ∧ inner.isFresh ∧ inner.members = [] then
      if holds flags ']' then some (.more (inner.add 0) outer rest) else none
    else if c = ']' then some (close inner outer rest)
    else if c = '[' then
      match className? rest with
      | some (isComplement, rest) =>
        if holdsClass flags isComplement then some (.more (inner.add 0) outer rest) else none
      | none => (behindMark? flags rest).map fun rest => .more {} (inner :: outer) rest
    else if (c = '&' ∨ c = '-' ∨ c = '~') ∧ rest.head? = some c then
      some (.more inner.combine outer rest.tail)
    else (behindMember? flags (c :: rest)).map fun rest => .more (inner.add 0) outer rest

/-- Read the rest of the brackets that are open. -/
def readRest? (flags : Flags) (inner : Opened) (outer : List Opened) (text : List Char) :
    Option (Nat × List Char) :=
  match step flags inner outer text with
  | none => none
  | some (.done depth rest) => some (depth, rest)
  | some (.more inner outer rest) =>
    if rest.length < text.length then readRest? flags inner outer rest else none
termination_by text.length

/-- The depth of a bracket, from behind its opening, and the text behind it. -/
def read? (flags : Flags) (text : List Char) : Option (Nat × List Char) :=
  (behindMark? flags text).bind (readRest? flags {} [])

end Bracket

end LineEditor.LogFilter.Pattern
