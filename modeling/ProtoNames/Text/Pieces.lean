/-!
Cutting a text at a separator, and joining texts with one.
-/

namespace ProtoNames.Text

/-- The pieces of a text between its separators: one more than there are separators. -/
def pieces (separator : Char) : List Char → List (List Char)
  | [] => [[]]
  | c :: cs =>
    if c == separator then [] :: pieces separator cs
    else
      match pieces separator cs with
      | [] => [[c]]
      | first :: others => (c :: first) :: others

/-- Texts with a separator between them. -/
def joined (separator : String) : List String → String
  | [] => ""
  | [s] => s
  | s :: rest => s ++ separator ++ joined separator rest

end ProtoNames.Text
