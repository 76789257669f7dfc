/-!
Blank characters and trimming.

A blank is white space in the bidirectional sense (classes WS, B and S) or a
space separator: besides the ASCII blanks and the four information separators
`1C` to `1F` these are the no-break, typographic and ideographic spaces and the
line and paragraph separators.
-/

namespace ProtoNames.Text

/-- A blank character. -/
def isBlank (c : Char) : Bool :=
  let n := c.toNat
  (0x09 ≤ n && n ≤ 0x0D) || (0x1C ≤ n && n ≤ 0x20) || n == 0x85 || n == 0xA0 ||
    n == 0x1680 || (0x2000 ≤ n && n ≤ 0x200A) || n == 0x2028 || n == 0x2029 ||
    n == 0x202F || n == 0x205F || n == 0x3000

/-- The blanks at the end dropped. -/
def trimEnd (cs : List Char) : List Char :=
  (cs.reverse.dropWhile isBlank).reverse

/-- The blanks at both ends dropped. -/
def trim (cs : List Char) : List Char :=
  trimEnd (cs.dropWhile isBlank)

end ProtoNames.Text
