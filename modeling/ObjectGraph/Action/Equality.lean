import ObjectGraph.Action.Basic

/-! # Equal actions

Two actions are equal when they are of one kind and agree part by part. The numbers of a constraint
are compared by value, so that `==` differs from `=` on them: a constraint with a NaN is not equal
to itself, and zeros of either sign are equal.
-/
namespace ObjectGraph.Action

/-- Equality by kind and part. -/
protected def beq : Action → Action → Bool
  | construct className arguments, construct className' arguments' =>
    className == className' && arguments == arguments'
  | assign target key value, assign target' key' value' =>
    target == target' && key == key' && value == value'
  | invoke target method arguments, invoke target' method' arguments' =>
    target == target' && method == method' && arguments == arguments'
  | attach parent child, attach parent' child' =>
    parent == parent' && child == child'
  | constrain first relation second multiplier constant,
      constrain first' relation' second' multiplier' constant' =>
    first == first' && relation == relation' && second == second' &&
      multiplier == multiplier' && constant == constant'
  | verbatim code dependencies, verbatim code' dependencies' =>
    code == code' && dependencies == dependencies'
  | _, _ => false

instance : BEq Action := ⟨Action.beq⟩

end ObjectGraph.Action
