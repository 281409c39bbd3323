/-!
# Numerals

* `count?` — the count that decimal digits stand for, within a bound.
* `isDecimal` — the numerals of real numbers: digits around a point, an exponent, or one of the
  words for infinity and for no number at all.
-/

set_option autoImplicit false

namespace LineEditor.Text

/-- A decimal digit. -/
def isDigit (c : Char) : Bool := '0' ≤ c && c ≤ '9'

/-- The value of decimal digits after what `value` stands for, nothing if one is no digit. -/
def digits? (value : Nat) : List Char → Option Nat
  | [] => some value
  | c :: rest => if isDigit c then digits? (value * 10 + (c.toNat - '0'.toNat)) rest else none

/-- The count that a text stands for: an optional plus sign and at least one digit, and no more than
`largest`. -/
def count? (largest : Nat) (text : List Char) : Option Nat :=
  let digits :=
    match text with
    | '+' :: rest => rest
    | all => all
  if digits.isEmpty then none
  else (digits? 0 digits).filter (· ≤ largest)

/-- Nothing, or a mark, an optional sign and at least one digit. -/
def isExponent : List Char → Bool
  | [] => true
  | mark :: rest =>
    let digits :=
      match rest with
      | '+' :: digits => digits
      | '-' :: digits => digits
      | digits => digits
    (mark == 'e' || mark == 'E') && !digits.isEmpty && digits.all isDigit

/-- A numeral of a real number, without a sign: digits before or behind an optional point and an
optional exponent, or a word. -/
def isDecimal (text : List Char) : Bool :=
  if text.map Char.toLower ∈ ["inf", "infinity", "nan"].map String.toList then true
  else
    let whole := text.takeWhile isDigit
    match text.dropWhile isDigit with
    | '.' :: rest =>
      !(whole ++ rest.takeWhile isDigit).isEmpty && isExponent (rest.dropWhile isDigit)
    | rest => !whole.isEmpty && isExponent rest

end LineEditor.Text
