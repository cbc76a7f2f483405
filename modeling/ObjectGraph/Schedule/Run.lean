import ObjectGraph.Schedule.Pass

/-! # Runs of a schedule

A run makes its declaration passes over the required identifiers, then drains the trailing phases,
and succeeds if no statement is pending or dropped in the end. `Document.listing` is the listing of
a run from the start; `State.run` begins in any state.
-/
namespace ObjectGraph

/-- The phases that are drained after the passes, in the order of their code. -/
def Phase.trailing : List Phase := [subviews, constraints, configuration]

/-- A finished schedule: what happened, and why it failed if it did. -/
structure Run where
  events : List Event
  failure : Option Failure

namespace State

def drainAll : List Phase → State → List Event × State
  | [], state => ([], state)
  | phase :: rest, state =>
    let taken := state.drain phase
    let tail := drainAll rest taken.2
    (.drained phase taken.1 :: tail.1, tail.2)

/-- The statements that no listing holds, the dropped ones first. -/
def remaining (state : State) : List Placed := state.discarded ++ state.pending

/-- The end of a run, which fails if statements remain. -/
def close (state : State) : Run :=
  if state.remaining.isEmpty then ⟨[], none⟩
  else
    ⟨[.unscheduled state.remaining.length state.discarded.length],
      some (.unresolved (state.remaining.map (.ofStatement ·.statement)))⟩

/-- The schedule of the required identifiers from a state on. -/
def run (policy : Policy) (required : List Identifier) (state : State) : Run :=
  let progress := state.passes policy 1 required
  match progress.failure with
  | some failure => ⟨progress.events, some failure⟩
  | none =>
    let trailing := drainAll Phase.trailing progress.state
    let closing := trailing.2.close
    ⟨progress.events ++ trailing.1 ++ closing.events, closing.failure⟩

end State

def Run.emitted (run : Run) : List Placed := run.events.flatMap Event.emitted

/-- The code that a run emits, or why there is none. -/
def Run.listing (document : Document) (run : Run) : Except Failure (List String) :=
  match run.failure with
  | some failure => .error failure
  | none => .ok (run.emitted.map fun p => document.code p.statement)

namespace Document

def run (policy : Policy) (document : Document) : Run :=
  (State.start document).run policy document.required

def listing (policy : Policy) (document : Document) : Except Failure (List String) :=
  (document.run policy).listing document

end Document

end ObjectGraph
