import LineEditor.Text.Class

/-!
# The characters of patterns

Patterns are read in one of two layouts: in the free layout blanks and comments may stand between
the characters of a pattern, otherwise every character counts.  A backslash begins an escape.

* `Flags` — what a pattern can switch on and off for what follows.
* `behindSpace` — a pattern from its next character that counts.
* `Atom`, `escape?` — what a single character or an escape stands for.
-/

set_option autoImplicit false

namespace LineEditor.LogFilter.Pattern

/-! ## Flags -/

/-- How what follows is read.  Flags that only decide what a pattern matches are not kept. -/
structure Flags where
  /-- does the pattern speak of characters, not of bytes? -/
  unicode : Bool := true
  /-- is the case of letters without meaning? -/
  foldsCase : Bool := false
  /-- may blanks and comments stand between the characters that count? -/
  free : Bool := false
  deriving DecidableEq, Repr

/-- The letters of the flags. -/
def flagLetters : List Char := ['i', 'm', 's', 'U', 'u', 'R', 'x']

/-- One flag is switched on or off. -/
def Flags.switch (flags : Flags) (value : Bool) (letter : Char) : Flags :=
  match letter with
  | 'u' => { flags with unicode := value }
  | 'i' => { flags with foldsCase := value }
  | 'x' => { flags with free := value }
  | _ => flags

/-- Flags are switched on, those behind a dash off. -/
def Flags.switchAll (value : Bool) : List Char → Flags → Flags
  | [], flags => flags
  | letter :: rest, flags =>
    if letter = '-' then switchAll false rest flags
    else switchAll value rest (flags.switch value letter)

/-! ## Layout -/

/-- A text from its first character that is neither a blank nor in a comment.  A comment goes from a
number sign to the end of the line. -/
def skipSpace (inComment : Bool) : List Char → List Char
  | [] => []
  | c :: rest =>
    if inComment then skipSpace (c ≠ '\n') rest
    else if Text.isBlank c then skipSpace false rest
    else if c = '#' then skipSpace true rest
    else c :: rest

/-- A pattern from its next character that counts. -/
def behindSpace (flags : Flags) (text : List Char) : List Char :=
  if flags.free then skipSpace false text else text

/-- The character that decides whether a dash in a bracket begins the second half of a range.  In
the free layout it is the next one that is no blank and does not begin a comment; a comment itself is
not passed over. -/
def glance (flags : Flags) (text : List Char) : Option Char :=
  let ahead :=
    match text.dropWhile Text.isBlank with
    | '#' :: rest => rest.dropWhile Text.isBlank
    | rest => rest
  if flags.free then ahead.head?.or text.head? else text.head?

/-! ## Atoms -/

/-- What a single character or an escape stands for. -/
inductive Atom where
  /-- a character; `isByte` if it is given by two hexadecimal digits -/
  | character (c : Char) (isByte : Bool)
  /-- any character at all -/
  | anything
  /-- an end of a line or of the value -/
  | edge
  /-- an end of a word, or a place that is none -/
  | wordEdge
  /-- a class of characters that has a letter of its own, or its complement -/
  | shorthand (isComplement : Bool)
  deriving DecidableEq, Repr

/-- How many digits follow the letter of an escape that gives the code point of a character. -/
def codeLength? : Char → Option Nat
  | 'x' => some 2
  | 'u' => some 4
  | 'U' => some 8
  | _ => none

/-- The value of a hexadecimal digit. -/
def hexDigit? (c : Char) : Option Nat :=
  if '0' ≤ c ∧ c ≤ '9' then some (c.toNat - '0'.toNat)
  else if 'a' ≤ c ∧ c ≤ 'f' then some (c.toNat - 'a'.toNat + 10)
  else if 'A' ≤ c ∧ c ≤ 'F' then some (c.toNat - 'A'.toNat + 10)
  else none

/-- The value of `count` hexadecimal digits after what `value` stands for, and the text behind
them. -/
def code? (flags : Flags) : Nat → Nat → List Char → Option (Nat × List Char)
  | 0, value, text => some (value, text)
  | count + 1, value, text =>
    match behindSpace flags text with
    | [] => none
    | c :: rest => (hexDigit? c).bind fun digit => code? flags count (value * 16 + digit) rest

/-- What one character behind a backslash stands for.  Signs stand for themselves. -/
def escaped? (c : Char) : Option Atom :=
  match c with
  | 'a' => some (.character '\x07' false)
  | 'f' => some (.character '\x0c' false)
  | 't' => some (.character '\t' false)
  | 'n' => some (.character '\n' false)
  | 'r' => some (.character '\r' false)
  | 'v' => some (.character '\x0b' false)
  | 'A' | 'z' => some .edge
  | 'b' | 'B' | '<' | '>' => some .wordEdge
  | 'd' | 's' | 'w' => some (.shorthand false)
  | 'D' | 'S' | 'W' => some (.shorthand true)
  | _ => if c.toNat < 0x80 ∧ !c.isAlphanum then some (.character c false) else none

/-- What an escape stands for, from behind its backslash, and the text behind it. -/
def escape? (flags : Flags) : List Char → Option (Atom × List Char)
  | [] => none
  | c :: rest =>
    match codeLength? c with
    | none => (escaped? c).map (·, rest)
    | some count =>
      (code? flags count 0 rest).bind fun (value, rest) =>
        if value.isValidChar then some (.character (Char.ofNat value) (c = 'x'), rest) else none

end LineEditor.LogFilter.Pattern
