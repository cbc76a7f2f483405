import ObjectGraph.Proofs.Lists
import ObjectGraph.Text.Utf8.Lemmas

/-! # One encoding for each text

The decoder accepts nothing but what the encoder writes. It reads the sequence of one character after
the other: the ranges that the first byte sets leave room for the bytes of that character only.
-/
namespace ObjectGraph.Text

section Characters
variable {n : Nat} {a b c d : UInt8}

theorem ofNat_eq_byte (h : a.toNat = n) : UInt8.ofNat n = a := by
  rw [← h,UInt8.ofNat_toNat]

theorem continuationByte_eq (h : a.toNat = 0x80 + n % 0x40) : continuationByte n = a :=
  ofNat_eq_byte h

theorem toNat_ofNat_char (h : n.isValidChar) : (Char.ofNat n).toNat = n := by
  rw [Char.ofNat,dif_pos h]
  rfl

theorem encodeChar_ofNat (h : n.isValidChar) : encodeChar (Char.ofNat n) =
    if n < 0x80 then [UInt8.ofNat n]
    else if n < 0x800 then [UInt8.ofNat (0xC0 + n / 0x40),continuationByte n]
    else if n < 0x10000 then
      [UInt8.ofNat (0xE0 + n / 0x1000),continuationByte (n / 0x40),continuationByte n]
    else
      [UInt8.ofNat (0xF0 + n / 0x40000),continuationByte (n / 0x1000),continuationByte (n / 0x40),
        continuationByte n] := by
  simp only [encodeChar,toNat_ofNat_char h]

theorem encodeChar_one (hn : n < 0x80) (ha : a.toNat = n) : encodeChar (Char.ofNat n) = [a] := by
  have hvalid : n.isValidChar := Or.inl (by omega)
  rw [encodeChar_ofNat hvalid,if_pos hn,ofNat_eq_byte ha]

theorem encodeChar_two (hlow : 0x80 ≤ n) (hhigh : n < 0x800) (ha : a.toNat = 0xC0 + n / 0x40)
    (hb : b.toNat = 0x80 + n % 0x40) : encodeChar (Char.ofNat n) = [a,b] := by
  have hvalid : n.isValidChar := Or.inl (by omega)
  rw [encodeChar_ofNat hvalid,if_neg (by omega),if_pos hhigh,ofNat_eq_byte ha,
    continuationByte_eq hb]

theorem encodeChar_three (hvalid : n.isValidChar) (hlow : 0x800 ≤ n) (hhigh : n < 0x10000)
    (ha : a.toNat = 0xE0 + n / 0x1000) (hb : b.toNat = 0x80 + n / 0x40 % 0x40)
    (hc : c.toNat = 0x80 + n % 0x40) : encodeChar (Char.ofNat n) = [a,b,c] := by
  rw [encodeChar_ofNat hvalid,if_neg (by omega),if_neg (by omega),if_pos hhigh,ofNat_eq_byte ha,
    continuationByte_eq hb,continuationByte_eq hc]

theorem encodeChar_four (hlow : 0x10000 ≤ n) (hhigh : n < 0x110000)
    (ha : a.toNat = 0xF0 + n / 0x40000) (hb : b.toNat = 0x80 + n / 0x1000 % 0x40)
    (hc : c.toNat = 0x80 + n / 0x40 % 0x40) (hd : d.toNat = 0x80 + n % 0x40) :
    encodeChar (Char.ofNat n) = [a,b,c,d] := by
  have hvalid : n.isValidChar := Or.inr ⟨by omega,hhigh⟩
  rw [encodeChar_ofNat hvalid,if_neg (by omega),if_neg (by omega),if_neg (by omega),
    ofNat_eq_byte ha,continuationByte_eq hb,continuationByte_eq hc,continuationByte_eq hd]

end Characters

section Sequences
variable {index seen value : Nat} {range next : ByteRange} {ranges : List ByteRange}
variable {byte : UInt8} {bytes : List UInt8} {cs : List Char}

/-- The kinds of first bytes, each with the ranges that it sets. -/
theorem openSequence_eq_some {first : Nat} (h : openSequence first = some (value,ranges)) :
    (first < 0x80 ∧ value = first ∧ ranges = []) ∨
    (0xC2 ≤ first ∧ first < 0xE0 ∧ value = first - 0xC0 ∧ ranges = [anyContinuation]) ∨
    (0xE0 ≤ first ∧ first < 0xF0 ∧ value = first - 0xE0 ∧ ∃ second : ByteRange,
      ranges = [second,anyContinuation] ∧ 0x80 ≤ second.1 ∧ second.2 ≤ 0xBF ∧
        (first = 0xE0 → 0xA0 ≤ second.1) ∧ (first = 0xED → second.2 ≤ 0x9F)) ∨
    (0xF0 ≤ first ∧ first < 0xF5 ∧ value = first - 0xF0 ∧ ∃ second : ByteRange,
      ranges = [second,anyContinuation,anyContinuation] ∧ 0x80 ≤ second.1 ∧ second.2 ≤ 0xBF ∧
        (first = 0xF0 → 0x90 ≤ second.1) ∧ (first = 0xF4 → second.2 ≤ 0x8F)) := by
  unfold openSequence at h
  split at h
  · next hone =>
    obtain ⟨rfl,rfl⟩ := Prod.mk.inj (Option.some.inj h)
    exact Or.inl ⟨hone,rfl,rfl⟩
  split at h
  · cases h
  split at h
  · obtain ⟨rfl,rfl⟩ := Prod.mk.inj (Option.some.inj h)
    exact Or.inr (Or.inl ⟨by omega,by omega,rfl,rfl⟩)
  split at h
  · obtain ⟨rfl,rfl⟩ := Prod.mk.inj (Option.some.inj h)
    refine Or.inr (Or.inr (Or.inl ⟨by omega,by omega,rfl,_,rfl,?_⟩))
    simp only [anyContinuation]
    grind
  split at h
  · obtain ⟨rfl,rfl⟩ := Prod.mk.inj (Option.some.inj h)
    refine Or.inr (Or.inr (Or.inr ⟨by omega,by omega,rfl,_,rfl,?_⟩))
    simp only [anyContinuation]
    grind
  · cases h

/-- Inside a sequence the next byte lies in the range that is expected of it. -/
theorem exists_cons_of_decodeFrom
    (h : decodeFrom index seen value (range :: ranges) bytes = .ok cs) :
    ∃ byte rest, bytes = byte :: rest ∧ range.1 ≤ byte.toNat ∧ byte.toNat ≤ range.2 ∧
      advance value byte.toNat (range :: ranges) =
        some (value * 0x40 + (byte.toNat - 0x80),ranges) := by
  cases bytes with
  | nil => simp [decodeFrom] at h
  | cons byte rest =>
    by_cases hrange : range.1 ≤ byte.toNat ∧ byte.toNat ≤ range.2
    · exact ⟨byte,rest,rfl,hrange.1,hrange.2,if_pos hrange⟩
    · have hnone : advance value byte.toNat (range :: ranges) = none := if_neg hrange
      simp [decodeFrom,hnone] at h

theorem decodeFrom_more (h : decodeFrom index seen value (range :: next :: ranges) bytes = .ok cs) :
    ∃ byte rest, bytes = byte :: rest ∧ range.1 ≤ byte.toNat ∧ byte.toNat ≤ range.2 ∧
      decodeFrom index (seen + 1) (value * 0x40 + (byte.toNat - 0x80)) (next :: ranges) rest =
        .ok cs := by
  obtain ⟨byte,rest,rfl,hlow,hhigh,hadvance⟩ := exists_cons_of_decodeFrom h
  rw [decodeFrom_of_more hadvance] at h
  exact ⟨byte,rest,rfl,hlow,hhigh,h⟩

theorem decodeFrom_last (h : decodeFrom index seen value [range] bytes = .ok cs) :
    ∃ byte rest, bytes = byte :: rest ∧ range.1 ≤ byte.toNat ∧ byte.toNat ≤ range.2 ∧
      ∃ later, cs = Char.ofNat (value * 0x40 + (byte.toNat - 0x80)) :: later ∧
        decodeFrom (index + seen + 1) 0 0 [] rest = .ok later := by
  obtain ⟨byte,rest,rfl,hlow,hhigh,hadvance⟩ := exists_cons_of_decodeFrom h
  rw [decodeFrom_of_done hadvance,map_cons_eq_ok_iff] at h
  exact ⟨byte,rest,rfl,hlow,hhigh,h⟩

/-- At the start of a sequence the decoder reads the bytes of a character. -/
theorem exists_encodeChar_of_decodeFrom (h : decodeFrom index 0 0 [] (byte :: bytes) = .ok cs) :
    ∃ c rest later index', byte :: bytes = encodeChar c ++ rest ∧ cs = c :: later ∧
      decodeFrom index' 0 0 [] rest = .ok later := by
  cases hopen : openSequence byte.toNat with
  | none => simp [decodeFrom,advance,hopen] at h
  | some opened =>
    obtain ⟨value,ranges⟩ := opened
    have hadvance : advance 0 byte.toNat [] = some (value,ranges) := hopen
    rcases openSequence_eq_some hopen with ⟨hlt,hvalue,rfl⟩ | ⟨hlow,hhigh,hvalue,rfl⟩ |
      ⟨hlow,hhigh,hvalue,second,rfl,hfrom,hto,hfirst,hlast⟩ |
      ⟨hlow,hhigh,hvalue,second,rfl,hfrom,hto,hfirst,hlast⟩
    · rw [decodeFrom_of_done hadvance,map_cons_eq_ok_iff] at h
      obtain ⟨later,rfl,hlater⟩ := h
      refine ⟨_,bytes,later,_,?_,rfl,hlater⟩
      rw [encodeChar_one (a := byte) (by omega) (by omega),List.singleton_append]
    · rw [decodeFrom_of_more hadvance] at h
      obtain ⟨b,rest,rfl,hb,hb',later,rfl,hlater⟩ := decodeFrom_last h
      simp only [anyContinuation] at hb hb'
      refine ⟨_,rest,later,_,?_,rfl,hlater⟩
      rw [encodeChar_two (a := byte) (b := b) (by omega) (by omega) (by omega) (by omega)]
      rfl
    · rw [decodeFrom_of_more hadvance] at h
      obtain ⟨b,rest,rfl,hb,hb',h⟩ := decodeFrom_more h
      obtain ⟨c,rest,rfl,hc,hc',later,rfl,hlater⟩ := decodeFrom_last h
      simp only [anyContinuation] at hc hc'
      refine ⟨_,rest,later,_,?_,rfl,hlater⟩
      -- The range behind ED leaves out the surrogates.
      have hvalid : ((value * 0x40 + (b.toNat - 0x80)) * 0x40 + (c.toNat - 0x80)).isValidChar := by
        unfold Nat.isValidChar
        omega
      rw [encodeChar_three (a := byte) (b := b) (c := c) hvalid (by omega) (by omega) (by omega)
        (by omega) (by omega)]
      rfl
    · rw [decodeFrom_of_more hadvance] at h
      obtain ⟨b,rest,rfl,hb,hb',h⟩ := decodeFrom_more h
      obtain ⟨c,rest,rfl,hc,hc',h⟩ := decodeFrom_more h
      obtain ⟨d,rest,rfl,hd,hd',later,rfl,hlater⟩ := decodeFrom_last h
      simp only [anyContinuation] at hc hc' hd hd'
      refine ⟨_,rest,later,_,?_,rfl,hlater⟩
      rw [encodeChar_four (a := byte) (b := b) (c := c) (d := d) (by omega) (by omega) (by omega)
        (by omega) (by omega) (by omega)]
      rfl

end Sequences

/-- What decodes to characters is their encoding. -/
theorem eq_flatMap_encodeChar_of_decodeFrom {index : Nat} {bytes : List UInt8} {cs : List Char}
    (h : decodeFrom index 0 0 [] bytes = .ok cs) : bytes = cs.flatMap encodeChar := by
  -- By induction on the characters, of which each decodes from at least one byte.
  induction cs generalizing index bytes with
  | nil =>
    cases bytes with
    | nil => rfl
    | cons byte bytes =>
      obtain ⟨c,_,_,_,_,hcs,_⟩ := exists_encodeChar_of_decodeFrom h
      cases hcs
  | cons c cs ih =>
    cases bytes with
    | nil => simp [decodeFrom] at h
    | cons byte bytes =>
      obtain ⟨_,rest,_,_,hbytes,hcs,hrest⟩ := exists_encodeChar_of_decodeFrom h
      obtain ⟨rfl,rfl⟩ := List.cons.inj hcs
      rw [hbytes,List.flatMap_cons,← ih hrest]

/-- Bytes that decode to a text are the bytes of this text. -/
theorem eq_encodeUtf8_of_decodeUtf8 {bytes : List UInt8} {text : String}
    (h : decodeUtf8 bytes = .ok text) : bytes = encodeUtf8 text := by
  unfold decodeUtf8 at h
  cases hcs : decodeFrom 0 0 0 [] bytes with
  | error fault => simp [hcs,Functor.map,Except.map] at h
  | ok cs =>
    rw [hcs] at h
    have htext : String.ofList cs = text := Except.ok.inj h
    rw [encodeUtf8,← htext,String.toList_ofList]
    exact eq_flatMap_encodeChar_of_decodeFrom hcs

end ObjectGraph.Text
