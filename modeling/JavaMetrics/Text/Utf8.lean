/-!
# UTF-8

`encode` gives the bytes of a text. `decode` reads any bytes: what is not
well-formed becomes a replacement character, one for every longest run of bytes
that could still have begun a character.
-/

namespace JavaMetrics.Text.Utf8

/-- The bytes of some characters. -/
def encode (cs : List Char) : List UInt8 :=
  cs.flatMap String.utf8EncodeChar

/-- What stands in for bytes that cannot be read. -/
def replacement : Char := '\ufffd'

/-- A character of which some bytes have been read. -/
structure Partial where
  /-- The bits so far. -/
  value : Nat
  /-- How many bytes are to come. -/
  missing : Nat
  /-- The least next byte. -/
  low : Nat
  /-- The greatest next byte. -/
  high : Nat

/-- What the first byte of a character says: the character itself, what is still to come, or
nothing when no character begins so. -/
def first (byte : Nat) : Option (Char ⊕ Partial) :=
  if byte < 0x80 then some (.inl (Char.ofNat byte))
  else if byte < 0xC2 then none
  else if byte < 0xE0 then some (.inr ⟨byte % 0x20, 1, 0x80, 0xBF⟩)
  else if byte < 0xF0 then
    some (.inr ⟨byte % 0x10, 2, if byte = 0xE0 then 0xA0 else 0x80,
      if byte = 0xED then 0x9F else 0xBF⟩)
  else if byte < 0xF5 then
    some (.inr ⟨byte % 0x08, 3, if byte = 0xF0 then 0x90 else 0x80,
      if byte = 0xF4 then 0x8F else 0xBF⟩)
  else none

/-- What a byte does to a character that has begun: it completes it, it continues it, or it does
not belong to it. -/
def Partial.next (p : Partial) (byte : Nat) : Option (Char ⊕ Partial) :=
  if p.low ≤ byte && byte ≤ p.high then
    let value := p.value * 0x40 + byte % 0x40
    if p.missing ≤ 1 then some (.inl (Char.ofNat value))
    else some (.inr ⟨value, p.missing - 1, 0x80, 0xBF⟩)
  else none

/-- Reads bytes after the beginning of a character, if one is pending. -/
def decodeFrom : Option Partial → List UInt8 → List Char
  | none, [] => []
  | some _, [] => [replacement]
  | pending, byte :: bytes =>
    let b := byte.toNat
    match pending.bind (·.next b) with
    | some (.inl c) => c :: decodeFrom none bytes
    | some (.inr p) => decodeFrom (some p) bytes
    | none =>
      let lost := if pending.isSome then [replacement] else []
      match first b with
      | some (.inl c) => lost ++ c :: decodeFrom none bytes
      | some (.inr p) => lost ++ decodeFrom (some p) bytes
      | none => lost ++ replacement :: decodeFrom none bytes

/-- The text of any bytes. -/
def decode (bytes : List UInt8) : List Char :=
  decodeFrom none bytes

/-- The text of bytes that are well-formed. -/
def decodeStrict? (bytes : List UInt8) : Option (List Char) :=
  let cs := decode bytes
  if encode cs == bytes then some cs else none

end JavaMetrics.Text.Utf8
