/-! # UTF-8

The encoding of characters as bytes, and a decoder that says where and how a sequence of bytes stops
being valid. The first byte of a sequence fixes how many follow and in which range each of them must
lie; these ranges leave out overlong forms, surrogates and everything past the last code point.
-/
namespace ObjectGraph.Text

/-- The byte that continues a sequence with the lowest six bits of `n`. -/
def continuationByte (n : Nat) : UInt8 := UInt8.ofNat (0x80 + n % 0x40)

/-- The one to four bytes of a character. -/
def encodeChar (c : Char) : List UInt8 :=
  let n := c.toNat
  if n < 0x80 then [UInt8.ofNat n]
  else if n < 0x800 then [UInt8.ofNat (0xC0 + n / 0x40), continuationByte n]
  else if n < 0x10000 then
    [UInt8.ofNat (0xE0 + n / 0x1000), continuationByte (n / 0x40), continuationByte n]
  else
    [UInt8.ofNat (0xF0 + n / 0x40000), continuationByte (n / 0x1000), continuationByte (n / 0x40),
      continuationByte n]

def encodeUtf8 (text : String) : List UInt8 := text.toList.flatMap encodeChar

/-- Where a sequence of bytes stops being UTF-8. -/
inductive Utf8Fault where
  /-- The sequence at `index` is invalid after its first `length` bytes. -/
  | invalid (length index : Nat)
  /-- The text ends inside the sequence at `index`. -/
  | incomplete (index : Nat)
  deriving DecidableEq

/-- The lowest and the highest byte that may stand in one place of a sequence. -/
abbrev ByteRange := Nat × Nat

/-- The bytes that continue a sequence without further condition. -/
def anyContinuation : ByteRange := (0x80, 0xBF)

/-- The high bits of the character that a first byte opens, and the ranges of the bytes after it. -/
def openSequence (byte : Nat) : Option (Nat × List ByteRange) :=
  if byte < 0x80 then some (byte, [])
  else if byte < 0xC2 then none
  else if byte < 0xE0 then some (byte - 0xC0, [anyContinuation])
  else if byte < 0xF0 then
    let second := if byte = 0xE0 then (0xA0, 0xBF) else if byte = 0xED then (0x80, 0x9F)
      else anyContinuation
    some (byte - 0xE0, [second, anyContinuation])
  else if byte < 0xF5 then
    let second := if byte = 0xF0 then (0x90, 0xBF) else if byte = 0xF4 then (0x80, 0x8F)
      else anyContinuation
    some (byte - 0xF0, [second, anyContinuation, anyContinuation])
  else none

/-- Takes one more byte: the value that is read then, and the ranges of the bytes still to come. The
ranges that are expected before it are given; between two sequences there are none. -/
def advance (value byte : Nat) : List ByteRange → Option (Nat × List ByteRange)
  | [] => openSequence byte
  | (low, high) :: ranges =>
    if low ≤ byte ∧ byte ≤ high then some (value * 0x40 + (byte - 0x80), ranges) else none

/-- Decodes bytes inside the sequence at `index`, of which `seen` bytes with the value `value` are
read and those of `expected` are still to come. -/
def decodeFrom (index seen value : Nat) (expected : List ByteRange) :
    List UInt8 → Except Utf8Fault (List Char)
  | [] => if expected.isEmpty then .ok [] else .error (.incomplete index)
  | byte :: bytes =>
    match advance value byte.toNat expected with
    | none => .error (.invalid (max seen 1) index)
    | some (value, []) => (Char.ofNat value :: ·) <$> decodeFrom (index + seen + 1) 0 0 [] bytes
    | some (value, ranges) => decodeFrom index (seen + 1) value ranges bytes

/-- The text that the bytes encode, or the first fault in them. -/
def decodeUtf8 (bytes : List UInt8) : Except Utf8Fault String :=
  String.ofList <$> decodeFrom 0 0 0 [] bytes

end ObjectGraph.Text
