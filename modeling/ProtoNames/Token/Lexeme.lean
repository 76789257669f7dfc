import ProtoNames.Token.Scan

/-!
Lexemes: what is left of a token if it does not matter where it stands.
-/

namespace ProtoNames

/-- The sort of a token and its text. -/
structure Lexeme where
  kind : TokenKind
  text : String
  deriving DecidableEq, Repr

/-- A token without its place. -/
def Token.lexeme (t : Token) : Lexeme := ⟨t.kind, t.text⟩

namespace Lexeme

/-- A word: a keyword, or else an identifier. -/
def word (text : String) : Lexeme := ⟨Scan.kindOfWord text, text⟩

/-- A keyword. -/
def keyword (k : Keyword) : Lexeme := word k.word

/-- A delimiter. -/
def symbol (s : Symbol) : Lexeme := ⟨.symbol s, String.singleton s.char⟩

/-- A number, as it is written. -/
def number (text : String) : Lexeme := ⟨.number, text⟩

/-- A string, as it is written between the quotes. -/
def string (body : String) : Lexeme := ⟨.string, body⟩

/-- The token that stands at a place. -/
def placed (l : Lexeme) (place : Position) : Token := ⟨l.kind, l.text, place⟩

@[simp] theorem lexeme_placed (l : Lexeme) (place : Position) : (l.placed place).lexeme = l := rfl

/-- Tokens spell their lexemes, wherever they stand. -/
theorem map_placed (ls : List Lexeme) (place : Position) :
    (ls.map (·.placed place)).map Token.lexeme = ls := by
  rw [List.map_map]
  exact List.map_id ls

@[simp] theorem kind_symbol (s : Symbol) : (symbol s).kind = .symbol s := rfl

@[simp] theorem kind_number (text : String) : (number text).kind = .number := rfl

@[simp] theorem kind_string (body : String) : (string body).kind = .string := rfl

@[simp] theorem kind_keyword (k : Keyword) : (keyword k).kind = .keyword k := by
  cases k <;> rfl

theorem kind_word_cases (text : String) :
    (∃ k, (word text).kind = .keyword k) ∨ (word text).kind = .identifier := by
  simp only [word, Scan.kindOfWord]
  split
  · exact .inl ⟨_, rfl⟩
  · exact .inr rfl

/-- Every word can be a name. -/
@[simp] theorem isName_word (text : String) : (word text).kind.isName = true := by
  rcases kind_word_cases text with ⟨k, same⟩ | same <;> rw [same] <;> rfl

@[simp] theorem kind_word_ne_symbol (text : String) (s : Symbol) :
    (word text).kind ≠ .symbol s := by
  rcases kind_word_cases text with ⟨k, same⟩ | same <;> rw [same] <;> simp

@[simp] theorem kind_word_ne_string (text : String) : (word text).kind ≠ .string := by
  rcases kind_word_cases text with ⟨k, same⟩ | same <;> rw [same] <;> simp

@[simp] theorem kind_word_ne_number (text : String) : (word text).kind ≠ .number := by
  rcases kind_word_cases text with ⟨k, same⟩ | same <;> rw [same] <;> simp

theorem kind_word_eq_keyword_iff {text : String} {k : Keyword} :
    (word text).kind = .keyword k ↔ text = k.word := by
  constructor
  · intro same
    simp only [word, Scan.kindOfWord] at same
    split at same
    · next found =>
      cases same
      have spelled := List.find?_some found
      exact (beq_iff_eq.mp spelled).symm
    · cases same
  · rintro rfl
    exact kind_keyword k

end Lexeme

end ProtoNames
