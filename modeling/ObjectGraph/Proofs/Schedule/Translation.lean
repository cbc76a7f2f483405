import Mathlib.Data.List.Basic
import ObjectGraph.Proofs.Schedule.History
import ObjectGraph.Proofs.Schedule.Lockstep

/-! # Translations

A translation puts an identifier of its own in the place of every identifier, and a statement in the
place of every statement that says the same about these identifiers. It carries a schedule along, turn
by turn: the run of a translated document is the translation of the run.
-/
namespace ObjectGraph

section
variable (f : Identifier → Identifier)

def Reference.rename (reference : Reference) : Reference :=
  { reference with identifier := f reference.identifier }

def Leftover.rename (entry : Leftover) : Leftover :=
  ⟨entry.phase,entry.declares.map f,entry.dependencies.map f⟩

def Failure.rename : Failure → Failure
  | duplicate x count => .duplicate (f x) count
  | unresolved remaining => .unresolved (remaining.map (.rename f))

end

/-- Other identifiers, different for different ones, and statements that put them in the place of the
old ones. Neither the phase of a statement nor the order of its dependencies changes. -/
structure Translation where
  identifier : Identifier → Identifier
  statement : Statement → Statement
  injective : Function.Injective identifier
  phase : ∀ s, (statement s).phase = s.phase
  declares : ∀ s, (statement s).declares = s.declares.map identifier
  dependencies : ∀ s, (statement s).dependencies = s.dependencies.map identifier

namespace Translation
variable (translation : Translation)

/-- A translated statement keeps its position. -/
def placed (p : Placed) : Placed := { p with statement := translation.statement p.statement }

def finding : Finding → Finding
  | .absent => .absent
  | .ready p => .ready (translation.placed p)
  | .blocked p => .blocked (translation.placed p)
  | .duplicate count => .duplicate count

def state (state : State) : State :=
  ⟨state.pending.map translation.placed,state.discarded.map translation.placed,
    state.declared.map translation.identifier⟩

def event : Event → Event
  | .declared x p => .declared (translation.identifier x) (translation.placed p)
  | .configured x ps => .configured (translation.identifier x) (ps.map translation.placed)
  | .notReady policy x p => .notReady policy (translation.identifier x) (translation.placed p)
  | .passEnded number resolved blocked => .passEnded number resolved blocked
  | .drained phase ps => .drained phase (ps.map translation.placed)
  | .unscheduled count discarded => .unscheduled count discarded

def progress (progress : Progress) : Progress :=
  ⟨progress.events.map translation.event,translation.state progress.state,
    progress.blocked.map translation.identifier,
    progress.failure.map (.rename translation.identifier)⟩

def run (run : Run) : Run :=
  ⟨run.events.map translation.event,run.failure.map (.rename translation.identifier)⟩

/-! What a schedule asks of a statement has the same answer after the translation. -/

theorem introduces (s : Statement) (x : Identifier) :
    (translation.statement s).introduces (translation.identifier x) = s.introduces x := by
  have hinjective := translation.injective
  rw [Bool.eq_iff_iff,Statement.introduces_eq_true_iff,Statement.introduces_eq_true_iff,
    translation.phase,translation.declares,← Option.map_some,(Option.map_injective hinjective).eq_iff]

theorem needsOnly (s : Statement) (x : Identifier) :
    (translation.statement s).action.needsOnly (translation.identifier x) = s.action.needsOnly x := by
  have hdependencies : (translation.statement s).action.dependencies =
      s.action.dependencies.map translation.identifier := translation.dependencies s
  have hinjective := (List.map_injective_iff.mpr translation.injective).eq_iff
    (a := s.action.dependencies) (b := [x])
  rw [Bool.eq_iff_iff,Action.needsOnly_eq_true_iff,Action.needsOnly_eq_true_iff,hdependencies]
  exact hinjective

theorem isDeclared (s : State) (x : Identifier) :
    (translation.state s).isDeclared (translation.identifier x) = s.isDeclared x :=
  decide_eq_decide.mpr (List.mem_map_of_injective translation.injective)

theorem permits (s : State) (statement : Statement) :
    (translation.state s).permits (translation.statement statement) = s.permits statement := by
  rw [State.permits,State.permits,translation.dependencies,List.all_map]
  congr 1
  funext x
  exact translation.isDeclared s x

theorem ofStatement (s : Statement) : Leftover.ofStatement (translation.statement s) =
    (Leftover.ofStatement s).rename translation.identifier := by
  rw [Leftover.ofStatement,translation.phase,translation.declares,translation.dependencies]
  rfl

/-! What the operations take and leave behind is translated. -/

theorem filter_placed (select other : Statement → Bool)
    (h : ∀ s, other (translation.statement s) = select s) (ps : List Placed) :
    (ps.map translation.placed).filter (other ·.statement) =
      (ps.filter (select ·.statement)).map translation.placed := by
  rw [List.filter_map]
  exact congrArg _ (List.filter_congr fun p _ => h p.statement)

theorem declarationsOf (s : State) (x : Identifier) :
    (translation.state s).declarationsOf (translation.identifier x) =
      (s.declarationsOf x).map translation.placed :=
  translation.filter_placed (·.introduces x) (·.introduces (translation.identifier x))
    (fun statement => translation.introduces statement x) s.pending

theorem pendingBut (s : State) (x : Identifier) :
    (translation.state s).pendingBut (translation.identifier x) =
      (s.pendingBut x).map translation.placed :=
  translation.filter_placed (!·.introduces x) (!·.introduces (translation.identifier x))
    (fun statement => congrArg (!·) (translation.introduces statement x)) s.pending

theorem take (select other : Statement → Bool)
    (h : ∀ s, other (translation.statement s) = select s) (s : State) :
    (translation.state s).take other =
      ((s.take select).1.map translation.placed,translation.state (s.take select).2) := by
  have htaken := translation.filter_placed select other h s.pending
  have hkept := translation.filter_placed (!select ·) (!other ·)
    (fun statement => congrArg (!·) (h statement)) s.pending
  exact Prod.ext htaken (congrArg (State.mk · _ _) hkept)

theorem configure (s : State) (x : Identifier) :
    (translation.state s).configure (translation.identifier x) =
      ((s.configure x).1.map translation.placed,translation.state (s.configure x).2) := by
  apply translation.take
  intro statement
  rw [translation.phase,translation.needsOnly]

theorem drain (s : State) (phase : Phase) :
    (translation.state s).drain phase =
      ((s.drain phase).1.map translation.placed,translation.state (s.drain phase).2) := by
  have htake := translation.take (·.phase == phase) (·.phase == phase)
    (fun statement => by rw [translation.phase]) s
  rw [State.drain,htake,State.drain,List.map_reverse]

theorem find (s : State) (x : Identifier) :
    (translation.state s).find (translation.identifier x) = translation.finding (s.find x) := by
  unfold State.find
  rw [translation.declarationsOf]
  rcases s.declarationsOf x with _ | ⟨p,_ | ⟨q,rest⟩⟩
  · rfl
  · simp only [List.map_cons,List.map_nil,placed,translation.permits]
    split <;> rfl
  · simp only [List.map_cons,List.length_cons,List.length_map,finding]

theorem settle (policy : Policy) (s : State) (x : Identifier) (found : Finding) :
    (translation.state s).settle policy (translation.identifier x) (translation.finding found) =
      translation.state (s.settle policy x found) := by
  have hpending := translation.pendingBut s x
  cases found with
  | absent => rfl
  | ready p => exact congrArg (State.mk · _ _) hpending
  | blocked p =>
    cases policy with
    | retain => rfl
    | discard =>
      have hdiscarded : s.discarded.map translation.placed ++ [translation.placed p] =
          (s.discarded ++ [p]).map translation.placed := by
        rw [List.map_append,List.map_singleton]
      exact congrArg₂ (State.mk · · _) hpending hdiscarded
  | duplicate count =>
    cases policy with
    | retain => rfl
    | discard => exact congrArg (State.mk · _ _) hpending

theorem declare (policy : Policy) (s : State) (x : Identifier) :
    (translation.state s).declare policy (translation.identifier x) =
      (translation.finding (s.declare policy x).1,translation.state (s.declare policy x).2) := by
  rw [State.declare,translation.find,translation.settle]
  rfl

theorem emit (policy : Policy) (s : State) (x : Identifier) :
    (translation.state s).emit policy (translation.identifier x) =
      ((s.emit policy x).1.map translation.placed,translation.state (s.emit policy x).2) := by
  rw [State.emit,translation.declare]
  exact translation.configure _ x

/-! Passes and drains are translated event by event. -/

theorem progress_waiting (x : Identifier) (progress : Progress) :
    (translation.progress progress).waiting (translation.identifier x) =
      translation.progress (progress.waiting x) := rfl

theorem progress_after (events : List Event) (progress : Progress) :
    (translation.progress progress).after (events.map translation.event) =
      translation.progress (progress.after events) := by
  have hevents : (events ++ progress.events).map translation.event =
      events.map translation.event ++ progress.events.map translation.event := List.map_append
  exact congrArg (Progress.mk · _ _ _) hevents.symm

theorem pass (policy : Policy) (worklist : List Identifier) (s : State) :
    (translation.state s).pass policy (worklist.map translation.identifier) =
      translation.progress (s.pass policy worklist) := by
  induction worklist generalizing s with
  | nil => rfl
  | cons x rest ih =>
    have hother := translation.find s x
    have hdeclare := translation.declare policy s x
    rw [List.map_cons]
    cases hfind : s.find x with
    | absent =>
      rw [hfind] at hother
      rw [State.pass_of_absent hfind,State.pass_of_absent hother,ih,progress_waiting]
    | ready p =>
      rw [hfind] at hother
      rw [State.pass_of_ready hfind,State.pass_of_ready hother,translation.emit,ih,
        ← progress_after]
      rfl
    | blocked p =>
      rw [hfind] at hother
      rw [State.pass_of_blocked hfind,State.pass_of_blocked hother,hdeclare,ih,progress_waiting,
        ← progress_after]
      rfl
    | duplicate count =>
      rw [hfind] at hother
      rw [State.pass_of_duplicate hfind,State.pass_of_duplicate hother,hdeclare]
      rfl

theorem pass_failure_eq_none {policy : Policy} {worklist : List Identifier} {s : State}
    (h : (s.pass policy worklist).failure = none) :
    ((translation.state s).pass policy (worklist.map translation.identifier)).failure = none := by
  rw [translation.pass]
  exact congrArg (Option.map _) h

theorem length_blocked_pass (policy : Policy) (worklist : List Identifier) (s : State) :
    ((translation.state s).pass policy (worklist.map translation.identifier)).blocked.length =
      (s.pass policy worklist).blocked.length := by
  rw [translation.pass]
  exact List.length_map _

theorem map_event_ended (events : List Event) (number resolved blocked : Nat) :
    events.map translation.event ++ [Event.passEnded number resolved blocked] =
      (events ++ [Event.passEnded number resolved blocked]).map translation.event := by
  rw [List.map_append]
  rfl

/-- A translated worklist is as long as before, so the same passes are made. -/
theorem passes (policy : Policy) (number : Nat) (worklist : List Identifier) (s : State) :
    (translation.state s).passes policy number (worklist.map translation.identifier) =
      translation.progress (s.passes policy number worklist) := by
  fun_induction State.passes policy number worklist s with
  | case1 number worklist s hempty =>
    rw [State.passes,List.isEmpty_map,if_pos hempty]
    rfl
  | case2 number worklist s hne done hfailed =>
    obtain ⟨failure,hfailure⟩ := Option.isSome_iff_exists.mp hfailed
    have hpass := translation.pass policy worklist s
    have hother := (congrArg Progress.failure hpass).trans (congrArg (Option.map _) hfailure)
    rw [State.passes_of_failed hother,hpass]
  | case3 number worklist s hne done hfailed resolved ended hlt ih =>
    have hnone : (s.pass policy worklist).failure = none := by simpa using hfailed
    have hlength := translation.length_blocked_pass policy worklist s
    rw [State.passes_of_progress (translation.pass_failure_eq_none hnone)
      (by rwa [hlength,List.length_map]),hlength,List.length_map,translation.pass]
    simp only [progress,map_event_ended]
    rw [ih]
    exact progress_after _ _ _
  | case4 number worklist s hne done hfailed resolved ended hlt =>
    have hnone : (s.pass policy worklist).failure = none := by simpa using hfailed
    have hlength := translation.length_blocked_pass policy worklist s
    have hlast : worklist ≠ [] := mt List.isEmpty_iff.mpr hne
    rw [State.passes_of_last (mt List.map_eq_nil_iff.mp hlast)
      (translation.pass_failure_eq_none hnone)
      (by rw [hlength,List.length_map]; exact Nat.le_of_not_lt hlt),hlength,List.length_map,
      translation.pass]
    simp only [progress,map_event_ended]
    rfl

theorem drainAll (phases : List Phase) (s : State) :
    State.drainAll phases (translation.state s) =
      ((State.drainAll phases s).1.map translation.event,
        translation.state (State.drainAll phases s).2) := by
  induction phases generalizing s with
  | nil => rfl
  | cons phase rest ih =>
    rw [State.drainAll,translation.drain,ih]
    rfl

theorem remaining (s : State) :
    (translation.state s).remaining = s.remaining.map translation.placed := by
  rw [State.remaining,State.remaining,List.map_append]
  rfl

theorem close (s : State) : (translation.state s).close = translation.run s.close := by
  have hentries : (s.remaining.map translation.placed).map (Leftover.ofStatement ·.statement) =
      (s.remaining.map (Leftover.ofStatement ·.statement)).map
        (.rename translation.identifier) := by
    rw [List.map_map,List.map_map]
    exact List.map_congr_left fun p _ => translation.ofStatement p.statement
  have hdiscarded : (translation.state s).discarded.length = s.discarded.length :=
    List.length_map _
  rw [State.close,State.close,translation.remaining,List.isEmpty_map,List.length_map,hentries,
    hdiscarded]
  split <;> rfl

/-- Whatever happens in a run happens in the translated run, with the translated statements and
identifiers. -/
theorem run_state (policy : Policy) (required : List Identifier) (s : State) :
    (translation.state s).run policy (required.map translation.identifier) =
      translation.run (s.run policy required) := by
  have hpasses := translation.passes policy 1 required s
  cases hfailure : (s.passes policy 1 required).failure with
  | some failure =>
    have hother := (congrArg Progress.failure hpasses).trans
      (congrArg (Option.map (Failure.rename translation.identifier)) hfailure)
    rw [State.run_of_failure hother,State.run_of_failure hfailure,hpasses]
    rfl
  | none =>
    simp only [State.run,hpasses,progress,hfailure,Option.map_none,translation.drainAll,
      translation.close,run,List.map_append]

/-! Translated documents. -/

theorem emitted (e : Event) :
    (translation.event e).emitted = e.emitted.map translation.placed := by
  cases e <;> rfl

theorem run_emitted (run : Run) :
    (translation.run run).emitted = run.emitted.map translation.placed := by
  rw [Run.emitted,Run.emitted,List.map_flatMap]
  refine (List.flatMap_map ..).trans ?_
  exact congrArg (List.flatMap · run.events) (funext translation.emitted)

/-- Documents the second of which is a translation of the first. Their registries may differ. -/
structure Translates (d e : Document) : Prop where
  statements : e.statements = d.statements.map translation.statement
  references : e.references = d.references.map (.rename translation.identifier)

namespace Translates
variable {translation : Translation} {d e : Document}

theorem required (h : translation.Translates d e) :
    e.required = d.required.map translation.identifier := by
  rw [Document.required,Document.required,h.references,List.filter_map,List.map_map,List.map_map]
  rfl

theorem supplied (h : translation.Translates d e) :
    e.supplied = d.supplied.map translation.identifier := by
  rw [Document.supplied,Document.supplied,h.references,List.filter_map,List.map_map,List.map_map]
  rfl

theorem placed (h : translation.Translates d e) : e.placed = d.placed.map translation.placed := by
  rw [Document.placed,Document.placed,h.statements,List.zipIdx_map,List.map_map,List.map_map]
  rfl

theorem start (h : translation.Translates d e) : State.start e = translation.state (.start d) := by
  rw [State.start,h.placed,h.supplied]
  rfl

theorem run (h : translation.Translates d e) (policy : Policy) :
    e.run policy = translation.run (d.run policy) := by
  rw [Document.run,h.start,h.required]
  exact translation.run_state policy d.required (.start d)

/-- A translation leaves every statement its place in a run. -/
theorem positions (h : translation.Translates d e) (policy : Policy) :
    (e.run policy).emitted.map (·.position) = (d.run policy).emitted.map (·.position) := by
  rw [h.run,translation.run_emitted,List.map_map]
  rfl

theorem failure (h : translation.Translates d e) (policy : Policy) :
    (e.run policy).failure = (d.run policy).failure.map (.rename translation.identifier) := by
  rw [h.run]
  rfl

theorem listing_of_error (h : translation.Translates d e) {policy : Policy} {failure : Failure}
    (hd : d.listing policy = .error failure) :
    e.listing policy = .error (failure.rename translation.identifier) := by
  rw [Document.listing,Run.listing_eq_error_iff] at hd
  exact Run.listing_eq_error_iff.mpr
    ((h.failure policy).trans (congrArg (Option.map _) hd))

theorem listing_of_ok (h : translation.Translates d e) {policy : Policy} {code : List String}
    (hd : d.listing policy = .ok code) :
    e.listing policy =
      .ok ((d.run policy).emitted.map fun p => e.code (translation.statement p.statement)) := by
  have hnone := (Run.listing_eq_ok_iff.mp hd).1
  refine Run.listing_eq_ok_iff.mpr
    ⟨(h.failure policy).trans (congrArg (Option.map _) hnone),?_⟩
  rw [h.run,translation.run_emitted,List.map_map]
  rfl

/-- Where translated statements have the code of the old ones, listings stay as they are. -/
theorem listing (h : translation.Translates d e) (policy : Policy)
    (hcode : ∀ s ∈ d.statements, e.code (translation.statement s) = d.code s) :
    e.listing policy = (d.listing policy).mapError (.rename translation.identifier) := by
  cases hd : d.listing policy with
  | error failure => exact h.listing_of_error hd
  | ok code =>
    obtain ⟨hperm,rfl⟩ := Document.emitted_perm hd
    refine (h.listing_of_ok hd).trans (congrArg Except.ok (List.map_congr_left fun p hp => ?_))
    exact hcode p.statement (Document.mem_statements (hperm.mem_iff.mp hp))

end Translates

end Translation

end ObjectGraph
