/-!
Lines of text.

Two rules are in use. A file is read with its line ends made uniform: a carriage
return, alone or before a newline, counts as a newline. Output of a tool is cut
at every line boundary: besides those, vertical tab, form feed, the separators
`1C` to `1E`, the next-line control and the Unicode line and paragraph separators.
-/

namespace ProtoNames.Text

/-- Every line end as a single newline. -/
def uniformNewlines : List Char → List Char
  | [] => []
  | '\r' :: '\n' :: rest => '\n' :: uniformNewlines rest
  | '\r' :: rest => '\n' :: uniformNewlines rest
  | c :: rest => c :: uniformNewlines rest

/-- A character that ends a line of output. -/
def isLineBoundary (c : Char) : Bool :=
  let n := c.toNat
  (0x0A ≤ n && n ≤ 0x0D) || (0x1C ≤ n && n ≤ 0x1E) || n == 0x85 || n == 0x2028 || n == 0x2029

/-- The lines of `cs`, where `line` holds what of the current line has been read,
backwards. A carriage return and a newline together end one line, and nothing
follows the last boundary unless text does. -/
def linesAfter (line : List Char) : List Char → List (List Char)
  | [] => if line.isEmpty then [] else [line.reverse]
  | '\r' :: '\n' :: rest => line.reverse :: linesAfter [] rest
  | c :: rest =>
    if isLineBoundary c then line.reverse :: linesAfter [] rest else linesAfter (c :: line) rest

/-- The lines of a text, without their boundaries. -/
def lines (s : String) : List String :=
  (linesAfter [] s.toList).map String.ofList

end ProtoNames.Text
