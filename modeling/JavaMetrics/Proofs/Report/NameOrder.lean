import JavaMetrics.Proofs.Report.CsvReader
import JavaMetrics.Proofs.Report.StableSort
import Mathlib.Algebra.Group.Nat.Defs
import Mathlib.Data.List.Lex

/-!
# Names in the order of their bytes

Records are sorted by name in the order of code points. A program that knows the
written table only as bytes finds it sorted too, because UTF-8 keeps the order: of
two texts the one that comes first has the bytes that come first
(`lt_iff_precedes`).

It comes down to two characters, the first ones in which the texts differ. If their
encodings are of different lengths, the first bytes decide, since every length has a
range of first bytes of its own (`lead_lt_of_further_lt`). If they are of the same
length, the bits of a character are spread over its bytes from the highest to the
lowest, six to a byte after the first one, and numbers compare as their digits do
(`digits_lt`). So the bytes differ before either encoding ends, and what follows the
two characters has no say (`utf8EncodeChar_precedes`).
-/

namespace JavaMetrics.Report

open Metrics (Record)

/-- Does one list of bytes come before another in a dictionary of bytes? -/
def Precedes (first second : List UInt8) : Prop :=
  List.Lex (fun x y => x.toNat < y.toNat) first second

/-! ## The bytes of a character -/

/-- The number of bytes after the first one. -/
def further (code : Nat) : Nat :=
  if code ≤ 0x7F then 0 else if code ≤ 0x7FF then 1 else if code ≤ 0xFFFF then 2 else 3

/-- What the first byte says of the number of bytes after it. -/
def leadMark : Nat → Nat
  | 0 => 0
  | 1 => 0xC0
  | 2 => 0xE0
  | _ => 0xF0

/-- The first byte. -/
def lead (code : Nat) : Nat :=
  leadMark (further code) + code / 64 ^ further code

/-- The bytes that hold the lowest digits to the base 64, the highest of these first. -/
def continuation : Nat → Nat → List UInt8
  | 0, _ => []
  | n + 1, code => UInt8.ofNat (code / 64 ^ n % 64 + 0x80) :: continuation n code

theorem toNat_lt (c : Char) : c.toNat < 0x110000 := by
  have hvalid := c.valid
  simp only [UInt32.isValidChar, Nat.isValidChar] at hvalid
  show c.val.toNat < 0x110000
  omega

theorem utf8EncodeChar_eq (c : Char) :
    String.utf8EncodeChar c =
      UInt8.ofNat (lead c.toNat) :: continuation (further c.toNat) c.toNat := by
  have hlt := toNat_lt c
  have hcode : c.val.toNat = c.toNat := rfl
  rw [String.utf8EncodeChar, lead, further, hcode]
  generalize c.toNat = code at hlt
  split
  · simp [leadMark, continuation]
  · split
    · have hmod : code / 64 % 32 + 192 = 192 + code / 64 := by omega
      simp [leadMark, continuation, hmod]
    · split
      · have hmod : code / 4096 % 16 + 224 = 224 + code / 4096 := by omega
        simp [leadMark, continuation, hmod]
      · have hmod : code / 262144 % 8 + 240 = 240 + code / 262144 := by omega
        simp [leadMark, continuation, hmod]

theorem lead_cases (code : Nat) :
    code ≤ 0x7F ∧ further code = 0 ∧ lead code = code ∨
      (0x7F < code ∧ code ≤ 0x7FF) ∧ further code = 1 ∧ lead code = 0xC0 + code / 64 ∨
      (0x7FF < code ∧ code ≤ 0xFFFF) ∧ further code = 2 ∧ lead code = 0xE0 + code / 4096 ∨
      0xFFFF < code ∧ further code = 3 ∧ lead code = 0xF0 + code / 262144 := by
  rw [lead, further]
  split
  · simp [leadMark]
    omega
  · split
    · simp [leadMark]
      omega
    · split
      · simp [leadMark]
        omega
      · simp [leadMark]
        omega

theorem lead_lt {code : Nat} (h : code < 0x110000) : lead code < UInt8.size := by
  have hcases := lead_cases code
  show lead code < 256
  omega

theorem further_le {first second : Nat} (h : first ≤ second) : further first ≤ further second := by
  have hfirst := lead_cases first
  have hsecond := lead_cases second
  omega

/-- The first bytes of longer characters are larger. -/
theorem lead_lt_of_further_lt {first second : Nat} (h : further first < further second) :
    lead first < lead second := by
  have hfirst := lead_cases first
  have hsecond := lead_cases second
  omega

/-! ## The order of two characters -/

/-- Of two numbers of two digits, the smaller one has the smaller first digit, or the same one and the
smaller second digit. -/
theorem digits_lt {base high low high' low' : Nat} (hlow : low' < base)
    (h : low + base * high < low' + base * high') : high < high' ∨ high = high' ∧ low < low' := by
  rcases Nat.lt_trichotomy high high' with hlt | heq | hgt
  · exact .inl hlt
  · subst heq
    exact .inr ⟨rfl, by omega⟩
  · have hle : base * (high' + 1) ≤ base * high := Nat.mul_le_mul_left base hgt
    rw [Nat.mul_succ] at hle
    omega

theorem toNat_continuation (digit : Nat) :
    (UInt8.ofNat (digit % 64 + 0x80)).toNat = digit % 64 + 0x80 := by
  apply UInt8.toNat_ofNat_of_lt'
  show digit % 64 + 0x80 < 256
  omega

theorem continuation_precedes {n first second : Nat} (h : first % 64 ^ n < second % 64 ^ n)
    (rest rest' : List UInt8) :
    Precedes (continuation n first ++ rest) (continuation n second ++ rest') := by
  induction n with
  | zero => omega
  | succ n ih =>
      have hbase : second % 64 ^ n < 64 ^ n := Nat.mod_lt _ (Nat.pow_pos (by decide))
      rw [Nat.mod_pow_succ, Nat.mod_pow_succ] at h
      rcases digits_lt hbase h with hdigit | ⟨hdigit, hlower⟩
      · refine .rel ?_
        rw [toNat_continuation, toNat_continuation]
        omega
      · rw [continuation, continuation, hdigit]
        exact .cons (ih hlower)

/-- A smaller character has the smaller bytes, whatever follows. -/
theorem utf8EncodeChar_precedes {c d : Char} (h : c < d) (rest rest' : List UInt8) :
    Precedes (String.utf8EncodeChar c ++ rest) (String.utf8EncodeChar d ++ rest') := by
  have hlt : c.toNat < d.toNat := h
  have hlead := UInt8.toNat_ofNat_of_lt' (lead_lt (toNat_lt c))
  have hlead' := UInt8.toNat_ofNat_of_lt' (lead_lt (toNat_lt d))
  rw [utf8EncodeChar_eq, utf8EncodeChar_eq]
  rcases Nat.lt_or_eq_of_le (further_le (Nat.le_of_lt hlt)) with hlength | hlength
  · refine .rel ?_
    rw [hlead, hlead']
    exact lead_lt_of_further_lt hlength
  · rw [lead, hlength] at hlead ⊢
    rw [lead] at hlead' ⊢
    generalize further d.toNat = n at hlead hlead' ⊢
    have hbase : d.toNat % 64 ^ n < 64 ^ n := Nat.mod_lt _ (Nat.pow_pos (by decide))
    have hdigits : c.toNat % 64 ^ n + 64 ^ n * (c.toNat / 64 ^ n) <
        d.toNat % 64 ^ n + 64 ^ n * (d.toNat / 64 ^ n) := by
      rwa [Nat.mod_add_div, Nat.mod_add_div]
    rcases digits_lt hbase hdigits with hhigh | ⟨hhigh, hlower⟩
    · refine .rel ?_
      rw [hlead, hlead']
      omega
    · rw [hhigh]
      exact .cons (continuation_precedes hlower rest rest')

/-! ## The order of two texts -/

/-- The bytes of a text. -/
def bytesOf (text : String) : List UInt8 :=
  Text.Utf8.encode text.toList

theorem precedes_encode {first second : List Char} (h : first < second) :
    Precedes (Text.Utf8.encode first) (Text.Utf8.encode second) := by
  induction h with
  | nil =>
      rw [Text.Utf8.encode, Text.Utf8.encode, List.flatMap_cons, utf8EncodeChar_eq]
      exact .nil
  | rel hlt => exact utf8EncodeChar_precedes hlt _ _
  | cons _ ih => exact List.Lex.append_left _ ih _

instance asymm_toNat_lt : Std.Asymm fun x y : UInt8 => x.toNat < y.toNat :=
  ⟨fun _ _ h hback => by omega⟩

theorem Precedes.asymm {first second : List UInt8} (h : Precedes first second) :
    ¬ Precedes second first :=
  (List.Lex.asymm fun x y : UInt8 => x.toNat < y.toNat).asymm first second h

/-- The order of texts is that of their bytes. -/
theorem lt_iff_precedes {first second : String} :
    first < second ↔ Precedes (bytesOf first) (bytesOf second) := by
  constructor
  · intro h
    exact precedes_encode h
  · intro h
    by_contra hnot
    by_cases hback : second < first
    · exact h.asymm (precedes_encode hback)
    · have heq : first = second :=
        String.le_antisymm (String.not_lt.mp hback) (String.not_lt.mp hnot)
      rw [heq] at h
      exact h.asymm h

/-! ## The order of the rows -/

/-- The names in a table: what stands first in the rows after the header. -/
def namesIn (table : List (List String)) : List String :=
  table.tail.filterMap List.head?

theorem namesIn_rows (layout : Layout) (records : List Record) :
    namesIn (rows layout records) = (sortRecords records).map (·.name) := by
  have hname : ∀ record : Record,
      ((row layout record).map Cell.content).head? = some record.name := by
    intro record
    cases layout <;> rfl
  simp [namesIn, rows, List.filterMap_map, hname]

/-- The order of code points is the order of bytes in UTF-8, so a reader of the written table finds the
names ascending in both. -/
theorem code_point_order_is_byte_order :
    (∀ first second : String, first < second ↔ Precedes (bytesOf first) (bytesOf second)) ∧
      ∀ (layout : Layout) (records : List Record), ∃ table,
        readTable (format layout records) = some table ∧
        namesIn table = (sortRecords records).map (·.name) ∧
        (namesIn table).Pairwise fun first second =>
          ¬ Precedes (bytesOf second) (bytesOf first) := by
  refine ⟨fun first second => lt_iff_precedes, fun layout records => ?_⟩
  refine ⟨rows layout records, readTable_format layout records, namesIn_rows layout records, ?_⟩
  rw [namesIn_rows, List.pairwise_map]
  refine (sortRecords_ordered records).imp fun hle => ?_
  rw [← lt_iff_precedes]
  exact String.not_lt.mpr hle

end JavaMetrics.Report
