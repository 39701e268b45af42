/-!
# Strict decoding of UTF-8

`decode` reads bytes as UTF-8. Bytes that are no UTF-8 are refused with the place where the first bad
sequence starts and with what is wrong there (`Utf8Fault`).
-/

namespace SatSearch.Text

/-- What is wrong with a byte sequence. -/
inductive Utf8Fault where
  /-- No character starts with this byte. -/
  | badStart
  /-- A byte is not one of those that may come at its place. -/
  | badContinuation
  /-- The bytes end inside a character. -/
  | unexpectedEnd
deriving DecidableEq

/-- The text that reports a fault. -/
def Utf8Fault.text : Utf8Fault → String
  | badStart => "invalid start byte"
  | badContinuation => "invalid continuation byte"
  | unexpectedEnd => "unexpected end of data"

/-- A fault, the offset of the byte at which the bad sequence starts, and the bytes of the sequence. -/
structure Utf8Error where
  fault : Utf8Fault
  offset : Nat
  sequence : List UInt8
deriving DecidableEq

/-- For a byte that starts a character: its share of the code point, and for each byte that has to
follow the closed range in which it has to lie. -/
def leadByte (b : Nat) : Option (Nat × List (Nat × Nat)) :=
  if b < 0x80 then some (b, [])
  else if b < 0xC2 then none
  else if b < 0xE0 then some (b - 0xC0, [(0x80, 0xBF)])
  else if b = 0xE0 then some (0, [(0xA0, 0xBF), (0x80, 0xBF)])
  else if b = 0xED then some (0xD, [(0x80, 0x9F), (0x80, 0xBF)])
  else if b < 0xF0 then some (b - 0xE0, [(0x80, 0xBF), (0x80, 0xBF)])
  else if b = 0xF0 then some (0, [(0x90, 0xBF), (0x80, 0xBF), (0x80, 0xBF)])
  else if b < 0xF4 then some (b - 0xF0, [(0x80, 0xBF), (0x80, 0xBF), (0x80, 0xBF)])
  else if b = 0xF4 then some (4, [(0x80, 0x8F), (0x80, 0xBF), (0x80, 0xBF)])
  else none

/-- Reads the bytes that complete a character; returns the code point and the bytes after it. -/
def continuation (code : Nat) : List (Nat × Nat) → List UInt8 → Except Utf8Fault (Nat × List UInt8)
  | [], rest => .ok (code, rest)
  | _ :: _, [] => .error .unexpectedEnd
  | (low, high) :: more, b :: rest =>
    if low ≤ b.toNat ∧ b.toNat ≤ high then continuation (code * 64 + (b.toNat - 0x80)) more rest
    else .error .badContinuation

theorem length_le_of_continuation {code code' : Nat} {ranges : List (Nat × Nat)}
    {bytes rest : List UInt8} (h : continuation code ranges bytes = .ok (code', rest)) :
    rest.length ≤ bytes.length := by
  induction ranges generalizing code bytes with
  | nil =>
    simp only [continuation, Except.ok.injEq, Prod.mk.injEq] at h
    simp [h.2]
  | cons r ranges ih =>
    cases bytes with
    | nil => simp [continuation] at h
    | cons b bytes =>
      rw [continuation] at h
      split at h
      · exact Nat.le_succ_of_le (ih h)
      · simp at h

/-- The bytes at the front that may complete a character. -/
def fitting : List (Nat × Nat) → List UInt8 → List UInt8
  | (low, high) :: more, b :: rest =>
    if low ≤ b.toNat ∧ b.toNat ≤ high then b :: fitting more rest else []
  | _, _ => []

/-- Decodes bytes of which the first lies at `offset`; `done` holds the characters before it, newest
first. -/
def decodeFrom (offset : Nat) (done : List Char) (bytes : List UInt8) :
    Except Utf8Error (List Char) :=
  match bytes with
  | [] => .ok done.reverse
  | b :: rest =>
    match leadByte b.toNat with
    | none => .error { fault := .badStart, offset, sequence := [b] }
    | some (code, ranges) =>
      match _h : continuation code ranges rest with
      | .error fault => .error { fault, offset, sequence := b :: fitting ranges rest }
      | .ok (code', rest') =>
        decodeFrom (offset + 1 + ranges.length) (Char.ofNat code' :: done) rest'
termination_by bytes.length
decreasing_by
  have := length_le_of_continuation ‹_›
  simp only [List.length_cons]
  omega

/-- Decodes bytes as UTF-8. -/
def decode (bytes : List UInt8) : Except Utf8Error (List Char) :=
  decodeFrom 0 [] bytes

/-- The bytes of a text in UTF-8. -/
def encode (s : List Char) : List UInt8 :=
  s.flatMap String.utf8EncodeChar

end SatSearch.Text
