import ProtoNames.Text.Quoted

/-!
Reading UTF-8 strictly.

A sequence is well formed when its bytes follow the table of shortest forms:
overlong forms, surrogates and code points above `10FFFF` are refused at the first
byte that no well-formed sequence has in that place. A refusal names the bytes from
the start of the sequence to the last one that still fitted.
-/

namespace ProtoNames.Text

/-- Why bytes are not UTF-8. -/
inductive Utf8Fault
  | invalidStart
  | invalidContinuation
  | unexpectedEnd
  deriving DecidableEq, Repr

/-- The first place where bytes are not UTF-8. -/
structure Utf8Error where
  fault : Utf8Fault
  /-- The byte that starts the faulty sequence. -/
  lead : UInt8
  /-- Its place, counted from 0. -/
  start : Nat
  /-- How many bytes belong to the faulty sequence. -/
  length : Nat
  deriving DecidableEq, Repr

/-- The words for a fault. -/
def Utf8Fault.message : Utf8Fault → String
  | .invalidStart => "invalid start byte"
  | .invalidContinuation => "invalid continuation byte"
  | .unexpectedEnd => "unexpected end of data"

/-- The words for an error: one byte is shown, several are given by their places. -/
def Utf8Error.message (e : Utf8Error) : String :=
  let subject :=
    if e.length == 1 then
      "byte 0x" ++ String.ofList (hexDigits 2 e.lead.toNat) ++ " in position " ++ toString e.start
    else
      "bytes in position " ++ toString e.start ++ "-" ++ toString (e.start + e.length - 1)
  "'utf-8' codec can't decode " ++ subject ++ ": " ++ e.fault.message

/-- The values allowed for the bytes after a lead byte, or `none` for a byte that
leads no sequence. -/
def followers? (lead : Nat) : Option (List (Nat × Nat)) :=
  let any := (0x80, 0xBF)
  if lead < 0x80 then some []
  else if lead < 0xC2 then none
  else if lead < 0xE0 then some [any]
  else if lead == 0xE0 then some [(0xA0, 0xBF), any]
  else if lead == 0xED then some [(0x80, 0x9F), any]
  else if lead < 0xF0 then some [any, any]
  else if lead == 0xF0 then some [(0x90, 0xBF), any, any]
  else if lead < 0xF4 then some [any, any, any]
  else if lead == 0xF4 then some [(0x80, 0x8F), any, any]
  else none

/-- The part of a lead byte that belongs to the code point. -/
def leadBits (lead following : Nat) : Nat :=
  match following with
  | 0 => lead
  | 1 => lead % 0x20
  | 2 => lead % 0x10
  | _ => lead % 0x08

/-- Reads one follower per allowed range into the code point. On failure the number
of followers that fitted is given too. -/
def readFollowers (point fitted : Nat) :
    List (Nat × Nat) → List UInt8 → Except (Utf8Fault × Nat) (Nat × List UInt8)
  | [], bytes => .ok (point, bytes)
  | _ :: _, [] => .error (.unexpectedEnd, fitted)
  | (low, high) :: ranges, b :: bytes =>
    if low ≤ b.toNat && b.toNat ≤ high then
      readFollowers (point * 0x40 + b.toNat % 0x40) (fitted + 1) ranges bytes
    else .error (.invalidContinuation, fitted)

theorem length_readFollowers_le {point fitted : Nat} {ranges : List (Nat × Nat)}
    {bytes rest : List UInt8} {value : Nat}
    (h : readFollowers point fitted ranges bytes = .ok (value, rest)) :
    rest.length ≤ bytes.length := by
  fun_induction readFollowers point fitted ranges bytes with
  | case1 => simp_all
  | case2 => simp at h
  | case3 point fitted low high ranges b bytes _ ih =>
    have := ih h
    simp only [List.length_cons]
    omega
  | case4 => simp at h

/-- The characters of `bytes`, which begin at the place `start` of the whole. -/
def decodeFrom (start : Nat) (bytes : List UInt8) : Except Utf8Error (List Char) :=
  match bytes with
  | [] => .ok []
  | lead :: more =>
    match followers? lead.toNat with
    | none => .error ⟨.invalidStart, lead, start, 1⟩
    | some ranges =>
      match h : readFollowers (leadBits lead.toNat ranges.length) 0 ranges more with
      | .error (fault, fitted) => .error ⟨fault, lead, start, fitted + 1⟩
      | .ok (point, rest) =>
        have := length_readFollowers_le h
        (decodeFrom (start + ranges.length + 1) rest).map (Char.ofNat point :: ·)
termination_by bytes.length
decreasing_by simp only [List.length_cons]; omega

/-- The characters that bytes spell in UTF-8. -/
def decodeUtf8 (bytes : List UInt8) : Except Utf8Error (List Char) :=
  decodeFrom 0 bytes

end ProtoNames.Text
