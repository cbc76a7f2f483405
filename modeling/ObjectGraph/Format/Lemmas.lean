import Mathlib.Algebra.Group.Nat.Defs
import ObjectGraph.Format.Reader
import ObjectGraph.Text.Utf8.Lemmas

/-! # Reading what was written

A reader that stands before the bytes of its writer takes just these bytes and finds the value. A
number has to fit its width, and a text the width of its length.
-/
namespace ObjectGraph.Format

section Sequences
variable {α β : Type} {read : Reader α} {next : α → Reader β} {bytes rest : List UInt8}

theorem pure_eq_ok_iff {a b : α} :
    (pure a : Reader α) bytes = .ok (b, rest) ↔ a = b ∧ bytes = rest := by
  change (Except.ok (a, bytes) : Except Fault (α × List UInt8)) = .ok (b, rest) ↔ _
  rw [Except.ok.injEq, Prod.mk.injEq]

/-- Two readers in a row accept what the first one accepts, and the second one behind it. -/
theorem bind_eq_ok_iff {b : β} : (read >>= next) bytes = .ok (b, rest) ↔
    ∃ a middle, read bytes = .ok (a, middle) ∧ next a middle = .ok (b, rest) := by
  simp only [bind, StateT.bind, Except.bind]
  rcases read bytes with fault | ⟨a, middle⟩
  · simp
  · simp [and_assoc]

/-- Two readers in a row stop at a fault of the first one, or else of the second one. -/
theorem bind_eq_error_iff {fault : Fault} : (read >>= next) bytes = .error fault ↔
    read bytes = .error fault ∨
      ∃ a middle, read bytes = .ok (a, middle) ∧ next a middle = .error fault := by
  simp only [bind, StateT.bind, Except.bind]
  rcases read bytes with fault | ⟨a, middle⟩
  · simp
  · simp [and_assoc]

theorem map_eq_ok_iff {f : α → β} {b : β} : (f <$> read) bytes = .ok (b, rest) ↔
    ∃ a, read bytes = .ok (a, rest) ∧ f a = b := by
  rw [map_eq_pure_bind, bind_eq_ok_iff]
  simp only [pure_eq_ok_iff]
  grind

/-- The first value of several is read before the others. -/
theorem readMany_succ_eq_ok_iff {count : Nat} {list : List α} :
    readMany read (count + 1) bytes = .ok (list, rest) ↔ ∃ a others middle,
      list = a :: others ∧ read bytes = .ok (a, middle) ∧
        readMany read count middle = .ok (others, rest) := by
  simp only [readMany, bind_eq_ok_iff, pure_eq_ok_iff]
  grind

end Sequences

theorem readWord_writeWord {width n : Nat} (h : n < 256 ^ width) (rest : List UInt8) :
    readWord width (writeWord width n ++ rest) = .ok (n, rest) := by
  induction width generalizing n with
  | zero =>
    have hn : n = 0 := by simpa using h
    subst hn
    rfl
  | succ width ih =>
    have hlow : (UInt8.ofNat n).toNat = n % 256 := by simp [UInt8.toNat_ofNat']
    have hhigh : n / 256 < 256 ^ width := by
      rw [Nat.pow_succ] at h
      omega
    simp only [readWord, writeWord, List.cons_append, bind, StateT.bind, readByte, Except.bind,
      ih hhigh, hlow, Nat.mod_add_div]
    rfl

@[simp] theorem length_writeWord (width n : Nat) : (writeWord width n).length = width := by
  induction width generalizing n with
  | zero => rfl
  | succ width ih => rw [writeWord, List.length_cons, ih]

theorem readBytes_append (bytes rest : List UInt8) :
    readBytes bytes.length (bytes ++ rest) = .ok (bytes, rest) := by
  induction bytes with
  | nil => rfl
  | cons byte bytes ih =>
    simp only [readBytes, List.length_cons, List.cons_append, bind, StateT.bind, readByte,
      Except.bind, ih]
    rfl

theorem readText_writeText {text : String}
    (h : (Text.encodeUtf8 text).length < 256 ^ lengthWidth) (rest : List UInt8) :
    readText (writeText text ++ rest) = .ok (text, rest) := by
  simp only [readText, writeText, List.append_assoc, bind, StateT.bind, Except.bind,
    readWord_writeWord h, readBytes_append, Text.decodeUtf8_encodeUtf8]
  rfl

/-- Values read back one after the other if each of them does. -/
theorem readMany_flatMap {α : Type} {read : Reader α} {write : α → List UInt8} {list : List α}
    (h : ∀ a ∈ list, ∀ rest, read (write a ++ rest) = .ok (a, rest)) (rest : List UInt8) :
    readMany read list.length (list.flatMap write ++ rest) = .ok (list, rest) := by
  induction list with
  | nil => rfl
  | cons a list ih =>
    have htail := ih fun b hb => h b (List.mem_cons_of_mem a hb)
    simp only [readMany, List.length_cons, List.flatMap_cons, List.append_assoc, bind, StateT.bind,
      Except.bind, h a List.mem_cons_self, htail]
    rfl

end ObjectGraph.Format
