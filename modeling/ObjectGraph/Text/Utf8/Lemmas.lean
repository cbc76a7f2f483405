import ObjectGraph.Text.Utf8.Basic

/-! # Decoding what was encoded

A decoder that stands before the bytes of a character takes just these bytes and finds the
character. Hence every text reads back from its bytes.
-/
namespace ObjectGraph.Text

theorem toNat_ofNat_byte {n : Nat} (h : n < 0x100) : (UInt8.ofNat n).toNat = n := by
  simp only [UInt8.toNat_ofNat']
  omega

theorem toNat_continuationByte (n : Nat) : (continuationByte n).toNat = 0x80 + n % 0x40 :=
  toNat_ofNat_byte (by omega)

section Steps
variable {n value : Nat} {ranges : List ByteRange}

/-- A continuation adds the low bits of `n` to the high ones that are read. -/
theorem advance_continuation {range : ByteRange} (hvalue : value = n / 0x40)
    (hlow : range.1 ≤ 0x80 + n % 0x40) (hhigh : 0x80 + n % 0x40 ≤ range.2) :
    advance value (continuationByte n).toNat (range :: ranges) = some (n, ranges) := by
  have hn : n / 0x40 * 0x40 + (0x80 + n % 0x40 - 0x80) = n := by omega
  simp only [advance, toNat_continuationByte, hlow, hhigh, and_self, if_true, hvalue, hn]

theorem advance_anyContinuation (hvalue : value = n / 0x40) :
    advance value (continuationByte n).toNat (anyContinuation :: ranges) = some (n, ranges) :=
  advance_continuation hvalue (Nat.le_add_right 0x80 _) (by simp only [anyContinuation]; omega)

variable {index seen : Nat} {expected : List ByteRange} {byte : UInt8}

theorem decodeFrom_of_more {range : ByteRange}
    (h : advance value byte.toNat expected = some (n, range :: ranges)) (bytes : List UInt8) :
    decodeFrom index seen value expected (byte :: bytes) =
      decodeFrom index (seen + 1) n (range :: ranges) bytes := by
  simp only [decodeFrom, h]

theorem decodeFrom_of_done (h : advance value byte.toNat expected = some (n, []))
    (bytes : List UInt8) :
    decodeFrom index seen value expected (byte :: bytes) =
      (Char.ofNat n :: ·) <$> decodeFrom (index + seen + 1) 0 0 [] bytes := by
  simp only [decodeFrom, h]

end Steps

section Openings
variable {n : Nat}

theorem openSequence_of_lt (h : n < 0x80) : openSequence n = some (n, []) := if_pos h

theorem openSequence_two (hlow : 0x80 ≤ n) (hhigh : n < 0x800) :
    openSequence (0xC0 + n / 0x40) = some (n / 0x40, [anyContinuation]) := by
  rw [openSequence, if_neg (by omega), if_neg (by omega), if_pos (by omega),
    Nat.add_sub_cancel_left]

/-- The second byte of a character below `0x10000` lies in the range that the first byte sets. -/
theorem openSequence_three (hlow : 0x800 ≤ n) (hhigh : n < 0x10000)
    (hchar : n < 0xD800 ∨ 0xDFFF < n) : ∃ range : ByteRange,
      range.1 ≤ 0x80 + n / 0x40 % 0x40 ∧ 0x80 + n / 0x40 % 0x40 ≤ range.2 ∧
        openSequence (0xE0 + n / 0x1000) = some (n / 0x1000, [range, anyContinuation]) := by
  rw [openSequence, if_neg (by omega), if_neg (by omega), if_neg (by omega), if_pos (by omega),
    Nat.add_sub_cancel_left]
  refine ⟨_, ?_, ?_, rfl⟩ <;> simp only [anyContinuation] <;> split <;> (try split) <;> omega

/-- The second byte of a character from `0x10000` on lies in the range that the first byte sets. -/
theorem openSequence_four (hlow : 0x10000 ≤ n) (hhigh : n < 0x110000) : ∃ range : ByteRange,
      range.1 ≤ 0x80 + n / 0x1000 % 0x40 ∧ 0x80 + n / 0x1000 % 0x40 ≤ range.2 ∧
        openSequence (0xF0 + n / 0x40000) =
          some (n / 0x40000, [range, anyContinuation, anyContinuation]) := by
  rw [openSequence, if_neg (by omega), if_neg (by omega), if_neg (by omega), if_neg (by omega),
    if_pos (by omega), Nat.add_sub_cancel_left]
  refine ⟨_, ?_, ?_, rfl⟩ <;> simp only [anyContinuation] <;> split <;> (try split) <;> omega

end Openings

/-- The bytes of a character decode to the character, whatever follows them. -/
theorem decodeFrom_encodeChar (c : Char) (index : Nat) (rest : List UInt8) :
    decodeFrom index 0 0 [] (encodeChar c ++ rest) =
      (c :: ·) <$> decodeFrom (index + (encodeChar c).length) 0 0 [] rest := by
  have hchar : c.toNat < 0xD800 ∨ 0xDFFF < c.toNat ∧ c.toNat < 0x110000 := c.valid
  have hc : Char.ofNat c.toNat = c := Char.ofNat_toNat c
  unfold encodeChar
  generalize c.toNat = n at hchar hc
  subst hc
  dsimp only
  split
  · have hopen : advance 0 (UInt8.ofNat n).toNat [] = some (n, []) := by
      rw [toNat_ofNat_byte (by omega), advance, openSequence_of_lt (by omega)]
    exact decodeFrom_of_done hopen rest
  split
  · have hopen : advance 0 (UInt8.ofNat (0xC0 + n / 0x40)).toNat [] =
        some (n / 0x40, [anyContinuation]) := by
      rw [toNat_ofNat_byte (by omega), advance, openSequence_two (by omega) (by omega)]
    simp only [List.cons_append]
    rw [decodeFrom_of_more hopen, decodeFrom_of_done (advance_anyContinuation rfl)]
    rfl
  split
  · rcases openSequence_three (n := n) (by omega) (by omega) (by omega) with
      ⟨range, hlow, hhigh, hseq⟩
    have hopen : advance 0 (UInt8.ofNat (0xE0 + n / 0x1000)).toNat [] =
        some (n / 0x1000, [range, anyContinuation]) := by
      rw [toNat_ofNat_byte (by omega), advance, hseq]
    simp only [List.cons_append]
    rw [decodeFrom_of_more hopen, decodeFrom_of_more (advance_continuation (by omega) hlow hhigh),
      decodeFrom_of_done (advance_anyContinuation rfl)]
    rfl
  · rcases openSequence_four (n := n) (by omega) (by omega) with ⟨range, hlow, hhigh, hseq⟩
    have hopen : advance 0 (UInt8.ofNat (0xF0 + n / 0x40000)).toNat [] =
        some (n / 0x40000, [range, anyContinuation, anyContinuation]) := by
      rw [toNat_ofNat_byte (by omega), advance, hseq]
    simp only [List.cons_append]
    rw [decodeFrom_of_more hopen, decodeFrom_of_more (advance_continuation (by omega) hlow hhigh),
      decodeFrom_of_more (advance_anyContinuation (by omega)),
      decodeFrom_of_done (advance_anyContinuation rfl)]
    rfl

theorem decodeFrom_flatMap_encodeChar (cs : List Char) (index : Nat) :
    decodeFrom index 0 0 [] (cs.flatMap encodeChar) = .ok cs := by
  induction cs generalizing index with
  | nil => rfl
  | cons c cs ih =>
    rw [List.flatMap_cons, decodeFrom_encodeChar, ih]
    rfl

/-- Every text reads back from its bytes. -/
theorem decodeUtf8_encodeUtf8 (text : String) : decodeUtf8 (encodeUtf8 text) = .ok text := by
  rw [decodeUtf8, encodeUtf8, decodeFrom_flatMap_encodeChar]
  exact congrArg Except.ok String.ofList_toList

end ObjectGraph.Text
