import ObjectGraph.Identifier.Basic

/-! # References

A document lists the identifiers that its statements are about. The object of a required reference
is declared inside the document; that of a supplied reference comes from the surroundings.
-/
namespace ObjectGraph

/-- An identifier together with the answer to who provides its object. -/
structure Reference where
  identifier : Identifier
  isSupplied : Bool
  deriving DecidableEq

namespace Reference

/-- A reference to an object that the document has to declare. -/
def required (x : Identifier) : Reference := ⟨x, false⟩

/-- A reference to an object that the surroundings supply. -/
def supplied (x : Identifier) : Reference := ⟨x, true⟩

/-- The reference that an identifier asks for by itself: supplied under the external mark. -/
def classify (x : Identifier) : Reference := ⟨x, x.hasExternalMark⟩

end Reference

end ObjectGraph
