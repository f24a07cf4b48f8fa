import TableStore.Text.Ranges

/-!
# Blank characters

The Unicode property White_Space: 25 code points.

* `isBlank c`   the character is blank;
* `trim`        a text without its blanks at both ends.
-/

namespace TableStore.Text

def blankRanges : List (Nat × Nat) := [
  (0x9, 0xD), (0x20, 0x20), (0x85, 0x85), (0xA0, 0xA0), (0x1680, 0x1680), (0x2000, 0x200A),
  (0x2028, 0x2029), (0x202F, 0x202F), (0x205F, 0x205F), (0x3000, 0x3000)]

def isBlank (c : Char) : Bool := covers blankRanges c.toNat

/-- the characters without the blanks at both ends -/
def trim (cs : List Char) : List Char :=
  ((cs.dropWhile isBlank).reverse.dropWhile isBlank).reverse

example : (blankRanges.foldr (fun r n => r.2 + 1 - r.1 + n) 0) = 25 := by decide
example : isBlank ' ' = true ∧ isBlank '\n' = true ∧ isBlank '\u3000' = true := by decide
example : isBlank 'a' = false ∧ isBlank '\u200b' = false := by decide
example : trim [' ', 'a', ' ', 'b', '\t'] = ['a', ' ', 'b'] := by decide

end TableStore.Text
