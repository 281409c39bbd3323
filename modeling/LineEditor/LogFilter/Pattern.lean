import LineEditor.LogFilter.Pattern.Bracket
import LineEditor.Text.Alphanumeric

/-!
# Patterns

A log filter asks for the values of fields by patterns: characters and sets of characters, repeated,
put in groups and offered as alternatives.  What a pattern matches plays no part here, only whether
it can be used.  A pattern cannot be used if it is not well formed, if its parts are nested too
deeply, or if it needs to know more of characters than is known: which of them are letters, digits
or blanks, and which differ in case alone.  A pattern of bytes must not match a part of a character.

* `Pattern.read?` — what a pattern comes to: how deeply it is nested, and whether it asks where
  words begin and end.
* `Pattern.fault?` — why a pattern cannot be used, if it cannot.
-/

set_option autoImplicit false

namespace LineEditor.LogFilter.Pattern

/-! ## Pieces and groups -/

/-- A piece of a pattern: a setting of flags, which cannot be repeated, or something to match. -/
inductive Piece where
  | setting
  | item (depth : Nat)
  deriving DecidableEq, Repr

/-- How deeply a piece is nested. -/
def Piece.depth : Piece → Nat
  | setting => 0
  | item depth => depth

/-- The alternatives of a group, or of the whole pattern, as far as they are read. -/
structure Alternatives where
  /-- the depths of those that are finished -/
  finished : List Nat := []
  /-- the pieces of the last one, the last piece first -/
  pieces : List Piece := []
  deriving DecidableEq, Repr

namespace Alternatives

/-- One more piece. -/
def add (alternatives : Alternatives) (piece : Piece) : Alternatives :=
  { alternatives with pieces := piece :: alternatives.pieces }

/-- The depth of the last alternative. -/
def lastDepth (alternatives : Alternatives) : Nat := nesting (alternatives.pieces.map Piece.depth)

/-- The next alternative begins. -/
def next (alternatives : Alternatives) : Alternatives where
  finished := alternatives.lastDepth :: alternatives.finished

/-- The depth of the alternatives. -/
def depth (alternatives : Alternatives) : Nat :=
  nesting (alternatives.lastDepth :: alternatives.finished)

end Alternatives

/-- A pattern that is being read. -/
structure Reading where
  flags : Flags := {}
  /-- the names of groups -/
  names : List (List Char) := []
  /-- does the pattern ask where words of characters begin or end? -/
  asksForWords : Bool := false
  current : Alternatives := {}
  /-- what the open groups stand in, and the flags there, the innermost group first -/
  groups : List (Flags × Alternatives) := []
  deriving DecidableEq, Repr

namespace Reading

/-- One more piece. -/
def add (reading : Reading) (piece : Piece) : Reading :=
  { reading with current := reading.current.add piece }

/-- A group begins, and `flags` hold in it. -/
def openGroup (reading : Reading) (flags : Flags) : Reading :=
  { reading with
    flags
    current := {}
    groups := (reading.flags, reading.current) :: reading.groups }

/-- A group ends, and the flags are again those in front of it. -/
def closeGroup? (reading : Reading) : Option Reading :=
  match reading.groups with
  | [] => none
  | (flags, outside) :: groups =>
    some { reading with
      flags, groups, current := outside.add (.item (reading.current.depth + 1)) }

/-- The last piece is repeated. -/
def repeat? (reading : Reading) : Option Reading :=
  match reading.current.pieces with
  | .item depth :: pieces =>
    some { reading with current := { reading.current with pieces := .item (depth + 1) :: pieces } }
  | _ => none

/-- One more atom. -/
def addAtom? (reading : Reading) : Atom → Option Reading
  | .character c isByte =>
    if if reading.flags.unicode then !reading.flags.foldsCase else !isByte || c ≤ '\x7f' then
      some (reading.add (.item 0))
    else none
  | .anything => if reading.flags.unicode then some (reading.add (.item 0)) else none
  | .edge => some (reading.add (.item 0))
  | .wordEdge =>
    some { reading.add (.item 0) with
      asksForWords := reading.asksForWords || reading.flags.unicode }
  | .shorthand isComplement =>
    if !reading.flags.unicode && !isComplement then some (reading.add (.item 0)) else none

end Reading

/-! ## The heads of groups -/

/-- May `c` stand in the name of a group, in front or behind other characters? -/
def isNameCharacter (isFirst : Bool) (c : Char) : Bool :=
  if isFirst then c == '_' || Text.isAlphabetic c
  else c == '_' || c == '.' || c == '[' || c == ']' || Text.isAlphanumeric c

/-- The name of a group and the text behind it. -/
def name? (text : List Char) : Option (List Char × List Char) :=
  match text.takeWhile (· ≠ '>'), text.dropWhile (· ≠ '>') with
  | first :: others, _ :: rest =>
    if isNameCharacter true first && others.all (isNameCharacter false) then
      some (first :: others, rest)
    else none
  | _, _ => none

/-- Letters of flags with at most one dash, none of them twice and no dash at the end; then the sign
that ends them and the text behind it. -/
def settings? (seen : List Char) : List Char → Option (List Char × Char × List Char)
  | [] => none
  | c :: rest =>
    if c = ':' ∨ c = ')' then
      if seen.getLast? = some '-' then none else some (seen, c, rest)
    else if (c = '-' ∨ c ∈ flagLetters) ∧ c ∉ seen then settings? (seen ++ [c]) rest
    else none

/-- A group with a name begins. -/
def openNamed? (reading : Reading) (text : List Char) : Option (Reading × List Char) :=
  (name? text).bind fun (name, rest) =>
    if reading.names.contains name then none
    else some ({ reading with names := name :: reading.names }.openGroup reading.flags, rest)

/-- The head of a group from behind its parenthesis: a name, flags for the group, or flags for what
follows. -/
def openGroup? (reading : Reading) (text : List Char) : Option (Reading × List Char) :=
  match behindSpace reading.flags text with
  | '?' :: 'P' :: '<' :: rest => openNamed? reading rest
  | '?' :: '<' :: rest => openNamed? reading rest
  | '?' :: rest =>
    match settings? [] rest with
    | none => none
    | some (letters, mark, rest) =>
      let flags := reading.flags.switchAll true letters
      if mark = ':' then some (reading.openGroup flags, rest)
      else if letters.isEmpty then none
      else some ({ reading.add .setting with flags }, rest)
  | rest => some (reading.openGroup reading.flags, rest)

/-! ## Reading -/

/-- Read one piece, or one sign between pieces.  A question mark behind a sign of repetition belongs
to the sign. -/
def step (reading : Reading) : List Char → Option (Reading × List Char)
  | [] => none
  | '(' :: rest => openGroup? reading rest
  | ')' :: rest => reading.closeGroup?.map (·, rest)
  | '|' :: rest => some ({ reading with current := reading.current.next }, rest)
  | '[' :: rest =>
    (Bracket.read? reading.flags rest).map fun (depth, rest) => (reading.add (.item depth), rest)
  | '{' :: _ => none
  | '\\' :: rest =>
    (escape? reading.flags rest).bind fun (atom, rest) => (reading.addAtom? atom).map (·, rest)
  | c :: rest =>
    if c = '?' ∨ c = '*' ∨ c = '+' then
      reading.repeat?.map fun reading =>
        match rest with
        | '?' :: rest => (reading, rest)
        | rest => (reading, rest)
    else
      let atom : Atom :=
        if c = '.' then .anything
        else if c = '^' ∨ c = '$' then .edge
        else .character c false
      (reading.addAtom? atom).map (·, rest)

/-- Read the rest of a pattern. -/
def readRest? (reading : Reading) (text : List Char) : Option Reading :=
  match behindSpace reading.flags text with
  | [] => some reading
  | c :: rest =>
    match step reading (c :: rest) with
    | none => none
    | some (reading, rest) =>
      if rest.length < text.length then readRest? reading rest else none
termination_by text.length

/-- What a pattern comes to, with all its groups closed. -/
def read? (text : List Char) : Option Reading :=
  (readRest? {} text).filter (·.groups.isEmpty)

/-! ## Faults -/

/-- Why a pattern cannot be used. -/
inductive Fault where
  /-- it is not well formed, too deep, or not decided by what is known of characters -/
  | unusable
  /-- it asks where words begin and end -/
  | words
  deriving DecidableEq, Repr

/-- The reason as notices print it. -/
def Fault.text : Fault → String
  | .unusable => "error building NFA"
  | .words =>
    "unsupported regex feature for DFAs: cannot build DFAs for regexes with Unicode word " ++
      "boundaries; switch to ASCII word boundaries, or heuristically enable Unicode word " ++
      "boundaries or use a different regex engine"

/-- How deeply the parts of a pattern may be nested. -/
def depthLimit : Nat := 250

/-- Why a pattern cannot be used, if it cannot. -/
def fault? (text : List Char) : Option Fault :=
  match read? text with
  | none => some .unusable
  | some reading =>
    if depthLimit < reading.current.depth then some .unusable
    else if reading.asksForWords then some .words
    else none

end LineEditor.LogFilter.Pattern
