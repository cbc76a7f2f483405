/-! # Phases

Every statement belongs to one of four phases, which say how early its code is emitted. The list of
all phases fixes the order in which they are shown and numbered.
-/
namespace ObjectGraph

/-- The coarse place of a statement in a listing. -/
inductive Phase where
  /-- Objects are constructed; identifiers are declared here and nowhere else. -/
  | initialization
  /-- Declared objects get their properties and calls. -/
  | configuration
  /-- Children are attached to their parents. -/
  | subviews
  /-- Layout constraints between declared objects are installed. -/
  | constraints
  deriving DecidableEq

namespace Phase

def all : List Phase := [initialization, configuration, subviews, constraints]

def name : Phase → String
  | initialization => "initialization"
  | configuration => "configuration"
  | subviews => "subviews"
  | constraints => "constraints"

def mayDeclare (phase : Phase) : Bool := phase == initialization

theorem mem_all (phase : Phase) : phase ∈ all := by
  cases phase <;> simp [all]

@[simp] theorem mayDeclare_eq_true_iff {phase : Phase} :
    phase.mayDeclare = true ↔ phase = initialization := by
  simp [mayDeclare]

end Phase

end ObjectGraph
