import JavaMetrics.Text.Blank
import JavaMetrics.Text.Utf8

/-!
# Encodings

The encodings in which a source file may be written, their names, and how their
bytes are read. No byte makes reading fail, except in the encoding of domain
names, which has no replacement for what it cannot read and so reads no text but
the empty one.

There are many more encodings than those listed here, and which of them a name
stands for is not the business of the program: it takes them as it finds them, as
`Codecs`. `Encoding.codecs` is what it is run with.
-/

namespace JavaMetrics.Text

/-- A reader of texts in one encoding. -/
structure Codec where
  /-- Why nothing can be written in the encoding, not even the empty text. -/
  defect? : Option String := none
  /-- The text of some bytes, or why they cannot be read. -/
  decode : List UInt8 → Except String (List Char)

/-- The encodings of text by name. A name that stands for none is unknown. -/
abbrev Codecs := String → Option Codec

/-- An encoding of text. -/
inductive Encoding where
  | utf8
  /-- UTF-8 with a byte order mark that is not part of the text. -/
  | utf8Signed
  /-- UTF-16 in the order of its byte order mark, little-endian without one. -/
  | utf16
  | utf16Little
  | utf16Big
  | latin1
  | ascii
  | domainName
  /-- The encoding that is there to be refused. -/
  | undefined
deriving DecidableEq, Repr

namespace Encoding

/-- The name without regard to case and to what separates its parts. -/
def normalizeName (name : String) : String :=
  let separates (c : Char) : Bool := !c.isAlphanum && c != '.'
  let parts := runsFrom separates [] (name.toList.map Char.toLower)
  "_".intercalate (parts.map String.ofList)

/-- The names of the encodings. -/
def names : List (String × Encoding) := [
  ("utf_8", .utf8), ("utf8", .utf8), ("u8", .utf8), ("utf", .utf8), ("cp65001", .utf8),
  ("utf_8_sig", .utf8Signed),
  ("utf_16", .utf16), ("utf16", .utf16), ("u16", .utf16),
  ("utf_16_le", .utf16Little), ("utf_16le", .utf16Little),
  ("utf_16_be", .utf16Big), ("utf_16be", .utf16Big),
  ("latin_1", .latin1), ("latin1", .latin1), ("latin", .latin1), ("l1", .latin1),
  ("iso_8859_1", .latin1), ("iso8859_1", .latin1), ("iso8859", .latin1), ("8859", .latin1),
  ("cp819", .latin1),
  ("ascii", .ascii), ("us_ascii", .ascii), ("646", .ascii), ("us", .ascii),
  ("idna", .domainName), ("undefined", .undefined)]

/-- The encoding of a name. -/
def ofName? (name : String) : Option Encoding :=
  names.lookup (normalizeName name)

/-- The 16-bit units of some bytes, and whether a byte is left over. -/
def units (big : Bool) : List UInt8 → List Nat × Bool
  | [] => ([], false)
  | [_] => ([], true)
  | a :: b :: rest =>
    let unit := if big then a.toNat * 256 + b.toNat else b.toNat * 256 + a.toNat
    let (more, odd) := units big rest
    (unit :: more, odd)

def isHighSurrogate (unit : Nat) : Bool := 0xD800 ≤ unit && unit < 0xDC00

def isLowSurrogate (unit : Nat) : Bool := 0xDC00 ≤ unit && unit < 0xE000

/-- The characters of 16-bit units; `odd` says that a byte is left over. A surrogate without its
partner is replaced, and so is the byte, together with a surrogate right before it. -/
def ofUnits (odd : Bool) : List Nat → List Char
  | [] => if odd then [Utf8.replacement] else []
  | [unit] =>
    if isHighSurrogate unit then [Utf8.replacement]
    else (if isLowSurrogate unit then Utf8.replacement else Char.ofNat unit) :: ofUnits odd []
  | high :: low :: rest =>
    if isHighSurrogate high then
      if isLowSurrogate low then
        Char.ofNat (0x10000 + (high - 0xD800) * 0x400 + (low - 0xDC00)) :: ofUnits odd rest
      else Utf8.replacement :: ofUnits odd (low :: rest)
    else
      (if isLowSurrogate high then Utf8.replacement else Char.ofNat high) ::
        ofUnits odd (low :: rest)

/-- The text of UTF-16 bytes. -/
def decodeUnits (big : Bool) (bytes : List UInt8) : List Char :=
  let (us, odd) := units big bytes
  ofUnits odd us

/-- The text of some bytes in the encoding of a name, or why they cannot be read. -/
def decode (name : String) (encoding : Encoding) (bytes : List UInt8) :
    Except String (List Char) :=
  match encoding with
  | .utf8 => .ok (Utf8.decode bytes)
  | .utf8Signed =>
    match bytes with
    | 0xEF :: 0xBB :: 0xBF :: rest => .ok (Utf8.decode rest)
    | _ => .ok (Utf8.decode bytes)
  | .utf16 =>
    match bytes with
    | 0xFF :: 0xFE :: rest => .ok (decodeUnits false rest)
    | 0xFE :: 0xFF :: rest => .ok (decodeUnits true rest)
    | _ => .ok (decodeUnits false bytes)
  | .utf16Little => .ok (decodeUnits false bytes)
  | .utf16Big => .ok (decodeUnits true bytes)
  | .latin1 => .ok (bytes.map fun b => Char.ofNat b.toNat)
  | .ascii =>
    .ok (bytes.map fun b => if b < 0x80 then Char.ofNat b.toNat else Utf8.replacement)
  | .domainName =>
    .error s!"decoding with '{name}' codec failed (UnicodeError: Unsupported error handling replace)"
  | .undefined =>
    .error s!"decoding with '{name}' codec failed (UnicodeError: undefined encoding)"

/-- The reader of an encoding that goes by a name. -/
def codec (name : String) (encoding : Encoding) : Codec where
  defect? :=
    if encoding = .undefined then
      some s!"encoding with '{name}' codec failed (UnicodeError: undefined encoding)"
    else none
  decode := encoding.decode name

/-- The encodings that the program is run with. -/
def codecs : Codecs := fun name =>
  (ofName? name).map (codec name)

end Encoding

end JavaMetrics.Text
