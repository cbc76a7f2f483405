import ObjectGraph.Document.Basic
import ObjectGraph.Schedule.Failure
import ObjectGraph.Schedule.Policy

/-! # States of a schedule

A schedule moves the statements of a document out of a list of pending ones. A statement carries its
position in the document, so that equal statements stay apart. The state also holds the declarations
that were dropped and the identifiers that are declared, from the start those that the surroundings
supply.

Three operations change a state: `declare` takes the declaration of an identifier if it is ready,
`configure` takes the configuration that depends on an identifier alone, and `drain` takes a phase.
-/
namespace ObjectGraph

structure Placed where
  position : Nat
  statement : Statement

/-- The statements of a document with their positions. -/
def Document.placed (document : Document) : List Placed :=
  document.statements.zipIdx.map fun (statement, position) => ⟨position, statement⟩

@[simp] theorem Document.map_statement_placed (document : Document) :
    document.placed.map (·.statement) = document.statements := by
  simp only [placed, List.map_map]
  exact List.zipIdx_map_fst 0 document.statements

@[simp] theorem Document.map_position_placed (document : Document) :
    document.placed.map (·.position) = List.range document.statements.length := by
  simp only [placed, List.map_map, List.range_eq_range']
  exact List.zipIdx_map_snd 0 document.statements

structure State where
  /-- The statements that are still to be emitted, in document order. -/
  pending : List Placed
  /-- The declarations that were dropped, in the order in which they were. -/
  discarded : List Placed
  /-- The identifiers that other statements may use, the latest first. -/
  declared : List Identifier

/-- What a look at the pending declarations of an identifier finds. -/
inductive Finding where
  /-- No pending statement declares the identifier. -/
  | absent
  /-- One does, and all its dependencies are declared. -/
  | ready (declaration : Placed)
  /-- One does, and some dependency is not declared. -/
  | blocked (declaration : Placed)
  /-- Several do. -/
  | duplicate (count : Nat)

namespace State

def start (document : Document) : State := ⟨document.placed, [], document.supplied⟩

/-- Whether dependent statements may use `x`. -/
def isDeclared (state : State) (x : Identifier) : Bool := decide (x ∈ state.declared)

def permits (state : State) (statement : Statement) : Bool :=
  statement.dependencies.all state.isDeclared

def declarationsOf (state : State) (x : Identifier) : List Placed :=
  state.pending.filter (·.statement.introduces x)

def pendingBut (state : State) (x : Identifier) : List Placed :=
  state.pending.filter (!·.statement.introduces x)

def find (state : State) (x : Identifier) : Finding :=
  match state.declarationsOf x with
  | [] => .absent
  | [p] => if state.permits p.statement then .ready p else .blocked p
  | several => .duplicate several.length

/-- The state after a look for the declaration of `x`. A declaration that is ready is emitted. Any
other one keeps its place if the policy retains, and leaves the pending ones if the policy discards;
it is then recorded as dropped, provided that it is the only one. -/
def settle (policy : Policy) (x : Identifier) (state : State) : Finding → State
  | .absent => state
  | .ready _ => { state with pending := state.pendingBut x, declared := x :: state.declared }
  | .blocked p =>
    match policy with
    | .retain => state
    | .discard => { state with pending := state.pendingBut x, discarded := state.discarded ++ [p] }
  | .duplicate _ =>
    match policy with
    | .retain => state
    | .discard => { state with pending := state.pendingBut x }

def declare (policy : Policy) (x : Identifier) (state : State) : Finding × State :=
  let found := state.find x
  (found, state.settle policy x found)

/-- Takes the pending statements that a condition selects. Both halves keep their order. -/
def take (select : Statement → Bool) (state : State) : List Placed × State :=
  (state.pending.filter (select ·.statement),
    { state with pending := state.pending.filter (!select ·.statement) })

/-- Takes the configuration that depends on `x` and on nothing else, in document order. -/
def configure (x : Identifier) (state : State) : List Placed × State :=
  state.take fun statement =>
    statement.phase == .configuration && statement.action.needsOnly x

/-- Takes the statements of a phase, in reverse document order: inner objects before outer ones. -/
def drain (phase : Phase) (state : State) : List Placed × State :=
  let taken := state.take (·.phase == phase)
  (taken.1.reverse, taken.2)

/-- The declared identifiers in ascending order, each once. -/
def declaredSet (state : State) : List Identifier :=
  (state.declared.mergeSort fun a b => !decide (b < a)).eraseDups

end State

end ObjectGraph
