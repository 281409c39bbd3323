/-!
# Classes of characters

* `isControl` — the control characters: those below the space, the delete character and the
  thirty-two after it.
* `isBlank` — the characters with Unicode's property `White_Space`; `trim` and `trimRight` remove
  them from the ends of a text.
-/

set_option autoImplicit false

namespace LineEditor.Text

/-- A control character. -/
def isControl (c : Char) : Bool := c.toNat < 0x20 || (0x7F ≤ c.toNat && c.toNat ≤ 0x9F)

/-- A character with the property `White_Space`. -/
def isBlank (c : Char) : Bool :=
  let n := c.toNat
  (0x09 ≤ n && n ≤ 0x0D) || n == 0x20 || n == 0x85 || n == 0xA0 || n == 0x1680 ||
    (0x2000 ≤ n && n ≤ 0x200A) || n == 0x2028 || n == 0x2029 || n == 0x202F || n == 0x205F ||
    n == 0x3000

/-- The text without the blanks at its end. -/
def trimRight (text : String) : String :=
  String.ofList (text.toList.reverse.dropWhile isBlank).reverse

/-- The text without the blanks at both ends. -/
def trim (text : String) : String :=
  trimRight (String.ofList (text.toList.dropWhile isBlank))

end LineEditor.Text
