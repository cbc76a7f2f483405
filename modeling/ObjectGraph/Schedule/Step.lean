import ObjectGraph.Schedule.State

/-! # Schedules by hand

A caller may drive a schedule step by step, with any steps in any order. Each step answers with the
statements that it emits.
-/
namespace ObjectGraph

inductive Step where
  | declaration (x : Identifier)
  | configuration (x : Identifier)
  | drain (phase : Phase)
  deriving DecidableEq

inductive Answer where
  /-- The declaration that was asked for, nothing if it is missing or blocked, or a failure. -/
  | declaration (outcome : Except Failure (Option Placed))
  | listing (statements : List Placed)

/-- What a caller is told about the declaration of `x`. -/
def Finding.outcome (x : Identifier) : Finding → Except Failure (Option Placed)
  | absent => .ok none
  | ready p => .ok (some p)
  | blocked _ => .ok none
  | duplicate count => .error (.duplicate x count)

namespace Answer

def emitted : Answer → List Placed
  | declaration (.ok p) => p.toList
  | declaration (.error _) => []
  | listing statements => statements

def failed : Answer → Bool
  | declaration (.error _) => true
  | _ => false

end Answer

namespace State

def perform (policy : Policy) (state : State) : Step → Answer × State
  | .declaration x =>
    let found := state.declare policy x
    (.declaration (found.1.outcome x), found.2)
  | .configuration x =>
    let taken := state.configure x
    (.listing taken.1, taken.2)
  | .drain phase =>
    let taken := state.drain phase
    (.listing taken.1, taken.2)

def performAll (policy : Policy) (state : State) : List Step → List Answer × State
  | [] => ([], state)
  | step :: steps =>
    let first := state.perform policy step
    let rest := first.2.performAll policy steps
    (first.1 :: rest.1, rest.2)

end State

end ObjectGraph
