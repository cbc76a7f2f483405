/-! # Policies

A declaration may be looked at before its dependencies are declared. A policy says what becomes of
it then.
-/
namespace ObjectGraph

/-- The fate of a declaration that is found blocked. -/
inductive Policy where
  /-- It keeps its place, so that a later pass can emit it. -/
  | retain
  /-- It is dropped for good, and the generation fails in the end. -/
  | discard
  deriving DecidableEq

/-- Declarations are retained where nothing else is said. -/
instance : Inhabited Policy := ⟨.retain⟩

end ObjectGraph
