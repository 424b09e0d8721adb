import JavaMetrics.Text.Utf8

/-!
# Bytes read back

The reader of bytes undoes the writer, for any text and with any bytes behind it
(`decode_encode_append`). What stands before a text cannot be taken apart in general:
its last bytes may begin a character that the bytes of the text go on with. A text that
begins with a character of ASCII is safe from that, since such a byte belongs to no
longer character. So it can be cut off in front of anything, well-formed or not
(`decode_append_encode`).
-/

namespace JavaMetrics.Text.Utf8

/-! ## One byte -/

theorem decodeFrom_none_cons (byte : UInt8) (bytes : List UInt8) :
    decodeFrom none (byte :: bytes) =
      match first byte.toNat with
      | some (.inl c) => c :: decodeFrom none bytes
      | some (.inr p) => decodeFrom (some p) bytes
      | none => replacement :: decodeFrom none bytes := by
  rw [decodeFrom]
  rfl

theorem decodeFrom_some_cons (p : Partial) (byte : UInt8) (bytes : List UInt8) :
    decodeFrom (some p) (byte :: bytes) =
      match p.next byte.toNat with
      | some (.inl c) => c :: decodeFrom none bytes
      | some (.inr q) => decodeFrom (some q) bytes
      | none => replacement :: decodeFrom none (byte :: bytes) := by
  rw [decodeFrom, decodeFrom_none_cons]
  simp only [Option.bind_some, Option.isSome_some, if_true]
  cases p.next byte.toNat with
  | some found => cases found <;> rfl
  | none =>
      cases first byte.toNat with
      | none => rfl
      | some found => cases found <;> rfl

theorem toNat_byte {n : Nat} (h : n < 256) : (UInt8.ofNat n).toNat = n :=
  UInt8.toNat_ofNat_of_lt' h

section

variable {p : Partial} {byte : Nat} (hlow : p.low ≤ byte) (hhigh : byte ≤ p.high)

include hlow hhigh

theorem next_last (hmissing : p.missing ≤ 1) :
    p.next byte = some (.inl (Char.ofNat (p.value * 0x40 + byte % 0x40))) := by
  rw [Partial.next, if_pos (by simp [hlow, hhigh])]
  exact if_pos hmissing

theorem next_more (hmissing : 1 < p.missing) :
    p.next byte = some (.inr ⟨p.value * 0x40 + byte % 0x40, p.missing - 1, 0x80, 0xBF⟩) := by
  rw [Partial.next, if_pos (by simp [hlow, hhigh])]
  exact if_neg (by omega)

end

/-! ## The first byte of a character -/

theorem first_ascii {byte : Nat} (h : byte < 0x80) : first byte = some (.inl (Char.ofNat byte)) :=
  if_pos h

theorem first_two {byte : Nat} (hlow : 0xC2 ≤ byte) (hhigh : byte < 0xE0) :
    first byte = some (.inr ⟨byte % 0x20, 1, 0x80, 0xBF⟩) := by
  rw [first, if_neg (by omega), if_neg (by omega), if_pos hhigh]

theorem first_three {byte : Nat} (hlow : 0xE0 ≤ byte) (hhigh : byte < 0xF0) :
    first byte = some (.inr ⟨byte % 0x10, 2, if byte = 0xE0 then 0xA0 else 0x80,
      if byte = 0xED then 0x9F else 0xBF⟩) := by
  rw [first, if_neg (by omega), if_neg (by omega), if_neg (by omega), if_pos hhigh]

theorem first_four {byte : Nat} (hlow : 0xF0 ≤ byte) (hhigh : byte < 0xF5) :
    first byte = some (.inr ⟨byte % 0x08, 3, if byte = 0xF0 then 0x90 else 0x80,
      if byte = 0xF4 then 0x8F else 0xBF⟩) := by
  rw [first, if_neg (by omega), if_neg (by omega), if_neg (by omega), if_neg (by omega),
    if_pos hhigh]

/-! ## One character -/

section

variable {code : Nat}

theorem decodeFrom_two (hlow : 0x7F < code) (hhigh : code ≤ 0x7FF) (rest : List UInt8) :
    decodeFrom none
        (UInt8.ofNat (code / 64 % 32 + 192) :: UInt8.ofNat (code % 64 + 128) :: rest) =
      Char.ofNat code :: decodeFrom none rest := by
  rw [decodeFrom_none_cons, toNat_byte (by omega), first_two (by omega) (by omega)]
  dsimp only
  rw [decodeFrom_some_cons, toNat_byte (by omega), next_last (by dsimp only; omega)
    (by dsimp only; omega) (by simp)]
  dsimp only
  congr 2
  omega

theorem decodeFrom_three (hlow : 0x7FF < code) (hhigh : code ≤ 0xFFFF)
    (hscalar : code < 0xD800 ∨ 0xDFFF < code) (rest : List UInt8) :
    decodeFrom none (UInt8.ofNat (code / 4096 % 16 + 224) ::
        UInt8.ofNat (code / 64 % 64 + 128) :: UInt8.ofNat (code % 64 + 128) :: rest) =
      Char.ofNat code :: decodeFrom none rest := by
  rw [decodeFrom_none_cons, toNat_byte (by omega), first_three (by omega) (by omega)]
  dsimp only
  -- the bounds for the second byte keep out short numbers and surrogates
  rw [decodeFrom_some_cons, toNat_byte (by omega), next_more (by dsimp only; split <;> omega)
    (by dsimp only; split <;> omega) (by simp)]
  dsimp only
  rw [decodeFrom_some_cons, toNat_byte (by omega), next_last (by dsimp only; omega)
    (by dsimp only; omega) (by simp)]
  dsimp only
  congr 2
  omega

theorem decodeFrom_four (hlow : 0xFFFF < code) (hhigh : code < 0x110000) (rest : List UInt8) :
    decodeFrom none (UInt8.ofNat (code / 262144 % 8 + 240) ::
        UInt8.ofNat (code / 4096 % 64 + 128) :: UInt8.ofNat (code / 64 % 64 + 128) ::
          UInt8.ofNat (code % 64 + 128) :: rest) =
      Char.ofNat code :: decodeFrom none rest := by
  rw [decodeFrom_none_cons, toNat_byte (by omega), first_four (by omega) (by omega)]
  dsimp only
  -- the bounds for the second byte keep out short numbers and those beyond the last character
  rw [decodeFrom_some_cons, toNat_byte (by omega), next_more (by dsimp only; split <;> omega)
    (by dsimp only; split <;> omega) (by simp)]
  dsimp only
  rw [decodeFrom_some_cons, toNat_byte (by omega), next_more (by dsimp only; omega)
    (by dsimp only; omega) (by simp)]
  dsimp only
  rw [decodeFrom_some_cons, toNat_byte (by omega), next_last (by dsimp only; omega)
    (by dsimp only; omega) (by simp)]
  dsimp only
  congr 2
  omega

end

theorem decodeFrom_utf8EncodeChar (c : Char) (rest : List UInt8) :
    decodeFrom none (String.utf8EncodeChar c ++ rest) = c :: decodeFrom none rest := by
  have hc : Char.ofNat c.val.toNat = c := Char.ofNat_toNat c
  have hvalid := c.valid
  simp only [UInt32.isValidChar, Nat.isValidChar] at hvalid
  rw [String.utf8EncodeChar]
  generalize c.val.toNat = code at hc hvalid
  split
  · rw [List.singleton_append, decodeFrom_none_cons, toNat_byte (by omega),
      first_ascii (by omega)]
    simp only [hc]
  · split
    · exact hc ▸ decodeFrom_two (by omega) (by omega) rest
    · split
      · exact hc ▸ decodeFrom_three (by omega) (by omega) (by omega) rest
      · exact hc ▸ decodeFrom_four (by omega) (by omega) rest

/-! ## Texts -/

theorem decode_encode_append (cs : List Char) (rest : List UInt8) :
    decode (encode cs ++ rest) = cs ++ decode rest := by
  induction cs with
  | nil => rfl
  | cons c cs ih =>
      rw [decode, encode, List.flatMap_cons, List.append_assoc, decodeFrom_utf8EncodeChar]
      exact congrArg (c :: ·) ih

/-- Is every byte that the character can go on with outside of ASCII? -/
def Partial.Beyond (p : Partial) : Prop :=
  0x80 ≤ p.low

theorem beyond_of_first {byte : Nat} {p : Partial} (h : first byte = some (.inr p)) :
    p.Beyond := by
  grind [first, Partial.Beyond]

theorem beyond_of_next {p q : Partial} {byte : Nat} (h : p.next byte = some (.inr q)) :
    q.Beyond := by
  grind [Partial.next, Partial.Beyond]

/-- A byte of ASCII begins a character anew, whatever was read before it. -/
theorem decodeFrom_append_ascii {byte : UInt8} (hbyte : byte.toNat < 0x80)
    {pending : Option Partial} (hpending : ∀ p ∈ pending, p.Beyond) (front rest : List UInt8) :
    decodeFrom pending (front ++ byte :: rest) =
      decodeFrom pending front ++ decodeFrom none (byte :: rest) := by
  induction front generalizing pending with
  | nil =>
      cases pending with
      | none => rfl
      | some p =>
          have hnext : p.next byte.toNat = none := by
            have hlow : 0x80 ≤ p.low := hpending p rfl
            rw [Partial.next, if_neg]
            simp only [Bool.and_eq_true, decide_eq_true_eq]
            omega
          rw [List.nil_append, decodeFrom_some_cons, hnext]
          rfl
  | cons lead front ih =>
      rw [List.cons_append]
      have hnone : decodeFrom none (lead :: (front ++ byte :: rest)) =
          decodeFrom none (lead :: front) ++ decodeFrom none (byte :: rest) := by
        rw [decodeFrom_none_cons, decodeFrom_none_cons]
        cases hlead : first lead.toNat with
        | none => exact congrArg (replacement :: ·) (ih (by simp))
        | some found =>
            cases found with
            | inl c => exact congrArg (c :: ·) (ih (by simp))
            | inr p => exact ih (by simpa using beyond_of_first hlead)
      cases pending with
      | none => exact hnone
      | some p =>
          rw [decodeFrom_some_cons, decodeFrom_some_cons]
          cases hnext : p.next lead.toNat with
          | none => exact congrArg (replacement :: ·) hnone
          | some found =>
              cases found with
              | inl c => exact congrArg (c :: ·) (ih (by simp))
              | inr q => exact ih (by simpa using beyond_of_next hnext)

/-- A text that begins with a character of ASCII, and has bytes before it and behind it. -/
theorem decode_append_encode {c : Char} (hc : c.toNat < 0x80) (front : List UInt8)
    (cs : List Char) (rest : List UInt8) :
    decode (front ++ (encode (c :: cs) ++ rest)) = decode front ++ (c :: cs ++ decode rest) := by
  have hbytes : encode (c :: cs) = UInt8.ofNat c.toNat :: encode cs := by
    have hle : c.val.toNat ≤ 127 := Nat.le_of_lt_succ hc
    rw [encode, List.flatMap_cons, String.utf8EncodeChar, if_pos hle]
    rfl
  have hbyte : (UInt8.ofNat c.toNat).toNat < 0x80 := by
    rw [toNat_byte (by omega)]
    exact hc
  have hread := decode_encode_append (c :: cs) rest
  rw [hbytes, List.cons_append] at hread ⊢
  rw [decode, decodeFrom_append_ascii hbyte (by simp)]
  exact congrArg (decode front ++ ·) hread

end JavaMetrics.Text.Utf8
