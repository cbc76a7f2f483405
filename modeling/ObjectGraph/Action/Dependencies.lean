import ObjectGraph.Action.Basic

/-! # Dependencies of actions

The dependencies of an action are the identifiers that have to be declared before its code is valid:
those it mentions, each once, in the order of their first mention. A construction does not mention
the identifier that its statement declares.
-/
namespace ObjectGraph

/-- The identifier behind a value, or nothing for a literal. -/
def Value.mentions : Value → List Identifier
  | literal _ => []
  | reference x => [x]

namespace Action

/-- The identifiers of an action in the order in which they are written, with repetitions. -/
def mentions : Action → List Identifier
  | construct _ arguments => arguments.flatMap (·.value.mentions)
  | assign target _ value => target :: value.mentions
  | invoke target _ arguments => target :: arguments.flatMap (·.value.mentions)
  | attach parent child => [parent, child]
  | constrain first _ second _ _ => first.owner :: second.toList.map (·.owner)
  | verbatim _ dependencies => dependencies

/-- The identifiers that an action mentions, each at its first mention. -/
def dependencies (action : Action) : List Identifier := action.mentions.eraseDups

/-- Whether `x` is the one identifier that an action depends on. -/
def needsOnly (action : Action) (x : Identifier) : Bool := action.dependencies == [x]

variable {action : Action} {x y : Identifier}

theorem mem_dependencies : x ∈ action.dependencies ↔ x ∈ action.mentions := List.mem_eraseDups

theorem needsOnly_eq_true_iff : action.needsOnly x = true ↔ action.dependencies = [x] := beq_iff_eq

theorem eq_of_needsOnly (hx : action.needsOnly x = true) (hy : action.needsOnly y = true) :
    x = y := by
  rw [needsOnly_eq_true_iff] at hx hy
  exact List.singleton_inj.mp (hx.symm.trans hy)

end Action

end ObjectGraph
