import ObjectGraph.Schedule.State

/-! # Declaration passes

A pass goes once through a worklist of required identifiers. Each declaration that is ready is
emitted, with the configuration that depends on its identifier alone right behind it; an identifier
whose declaration is missing or blocked stays on the worklist. Passes follow each other until the
worklist is empty or a pass resolves nothing. A doubly declared identifier ends them at once.
-/
namespace ObjectGraph

inductive Event where
  /-- The declaration of `x` is emitted. -/
  | declared (x : Identifier) (declaration : Placed)
  /-- The configuration of `x` alone is emitted. -/
  | configured (x : Identifier) (statements : List Placed)
  /-- The declaration of `x` waits for a dependency, and the policy decides about it. -/
  | notReady (policy : Policy) (x : Identifier) (declaration : Placed)
  /-- A pass is over; passes are numbered from one. -/
  | passEnded (number resolved blocked : Nat)
  /-- The rest of a phase is emitted. -/
  | drained (phase : Phase) (statements : List Placed)
  /-- Statements are left over, some of them dropped. -/
  | unscheduled (count discarded : Nat)

/-- The statements that an event emits, in the order of their code. -/
def Event.emitted : Event → List Placed
  | declared _ declaration => [declaration]
  | configured _ statements => statements
  | drained _ statements => statements
  | _ => []

/-- What passes leave behind: their events, the state, the identifiers that are still on the
worklist, and the failure that ended them, if any. -/
structure Progress where
  events : List Event
  state : State
  blocked : List Identifier
  failure : Option Failure

namespace Progress

def after (events : List Event) (progress : Progress) : Progress :=
  { progress with events := events ++ progress.events }

def waiting (x : Identifier) (progress : Progress) : Progress :=
  { progress with blocked := x :: progress.blocked }

end Progress

namespace State

def pass (policy : Policy) : List Identifier → State → Progress
  | [], state => ⟨[], state, [], none⟩
  | x :: rest, state =>
    let found := state.declare policy x
    match found.1 with
    | .absent => (pass policy rest found.2).waiting x
    | .ready p =>
      let taken := found.2.configure x
      (pass policy rest taken.2).after [.declared x p, .configured x taken.1]
    | .blocked p => ((pass policy rest found.2).waiting x).after [.notReady policy x p]
    | .duplicate count => ⟨[], found.2, [], some (.duplicate x count)⟩

/-- Passes with numbers from `number` on, until one resolves nothing. -/
def passes (policy : Policy) (number : Nat) (worklist : List Identifier) (state : State) :
    Progress :=
  if worklist.isEmpty then ⟨[], state, [], none⟩
  else
    let done := state.pass policy worklist
    if done.failure.isSome then done
    else
      let resolved := worklist.length - done.blocked.length
      let ended := done.events ++ [.passEnded number resolved done.blocked.length]
      if done.blocked.length < worklist.length then
        (done.state.passes policy (number + 1) done.blocked).after ended
      else { done with events := ended }
termination_by worklist.length

end State

end ObjectGraph
