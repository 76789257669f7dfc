/-!
Ranges of characters, the entries of the character tables.
-/

namespace ProtoNames.Text

/-- The characters from one code point to another, both included. -/
abbrev Range := Nat × Nat

/-- Membership of a character in a range. -/
def Range.contains (r : Range) (c : Char) : Bool :=
  r.1 ≤ c.toNat && c.toNat ≤ r.2

end ProtoNames.Text
