/-! # Identifiers

An identifier is the name by which the statements of a document refer to one object. It is not
the variable that generated code uses for the object; the registry of a document chooses that.
Identifiers are ordered as their texts are, character by character.
-/
namespace ObjectGraph

structure Identifier where
  text : String
  deriving DecidableEq

namespace Identifier

instance : LT Identifier := ⟨fun a b => a.text < b.text⟩

instance (a b : Identifier) : Decidable (a < b) :=
  inferInstanceAs (Decidable (a.text < b.text))

/-- The character that opens the identifiers of objects owned outside the document. -/
def externalMark : Char := '-'

def hasExternalMark (x : Identifier) : Bool :=
  x.text.toList.head? == some externalMark

theorem lt_def {a b : Identifier} : a < b ↔ a.text < b.text := Iff.rfl

theorem lt_irrefl (a : Identifier) : ¬a < a := String.lt_irrefl a.text

theorem lt_trans {a b c : Identifier} (hab : a < b) (hbc : b < c) : a < c :=
  String.lt_trans hab hbc

theorem lt_asymm {a b : Identifier} (h : a < b) : ¬b < a := String.lt_asymm h

theorem lt_of_not_lt_of_lt {a b c : Identifier} (hab : ¬b < a) (hbc : b < c) : a < c := by
  have hle : a.text ≤ b.text := String.not_lt.mp hab
  exact lt_def.mpr (Std.lt_of_le_of_lt hle hbc)

/-- Of two identifiers neither of which precedes the other, both are the same. -/
theorem eq_of_not_lt {a b : Identifier} (hab : ¬a < b) (hba : ¬b < a) : a = b := by
  rcases a with ⟨a⟩
  rcases b with ⟨b⟩
  exact congrArg Identifier.mk (String.le_antisymm (String.not_lt.mp hba) (String.not_lt.mp hab))

/-- The order of two identifiers as one of the three values of `Ordering`. -/
def compare (a b : Identifier) : Ordering :=
  if a < b then .lt else if a = b then .eq else .gt

end Identifier

end ObjectGraph
