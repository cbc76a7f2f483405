import ObjectGraph.Proofs.Schedule.Turns

/-! # The end of a run

After its passes a run drains every phase but the initialization. So it emits what is pending there in
reversed stretches, and it fails if a declaration was dropped or an initialization is pending.
-/
namespace ObjectGraph

theorem Phase.nodup_trailing : trailing.Nodup := by decide

theorem Phase.mem_trailing {phase : Phase} : phase ∈ trailing ↔ phase ≠ .initialization := by
  cases phase <;> decide

namespace State
variable {policy : Policy} {required : List Identifier} {state : State}

/-- The pending statements of a phase in document order. -/
def inPhase (state : State) (phase : Phase) : List Placed :=
  state.pending.filter (·.statement.phase == phase)

/-- The statements that the drains after the passes emit. -/
def trailing (state : State) : List Placed :=
  Phase.trailing.flatMap fun phase => (state.inPhase phase).reverse

theorem mem_trailing {p : Placed} : p ∈ state.trailing ↔
    p ∈ state.pending ∧ p.statement.phase ≠ .initialization := by
  simp only [trailing,inPhase,List.mem_flatMap,List.mem_reverse,List.mem_filter,beq_iff_eq]
  constructor
  · rintro ⟨phase,hphase,hp,rfl⟩
    exact ⟨hp,Phase.mem_trailing.mp hphase⟩
  · rintro ⟨hp,hphase⟩
    exact ⟨p.statement.phase,Phase.mem_trailing.mpr hphase,hp,rfl⟩

/-- The statements that the drains after the passes do not reach, the dropped ones first. -/
def leftover (state : State) : List Placed := state.discarded ++ state.inPhase .initialization

theorem inPhase_drain {phase other : Phase} (h : other ≠ phase) (state : State) :
    (state.drain phase).2.inPhase other = state.inPhase other := by
  simp only [drain,take,inPhase,List.filter_filter]
  apply List.filter_congr
  intro p _
  by_cases hp : p.statement.phase = other
  · simp [hp,h]
  · simp [hp]

theorem drainAll_events {phases : List Phase} (h : phases.Nodup) (state : State) :
    (drainAll phases state).1 =
      phases.map fun phase => .drained phase (state.inPhase phase).reverse := by
  induction phases generalizing state with
  | nil => rfl
  | cons phase rest ih =>
    obtain ⟨hphase,hrest⟩ := List.nodup_cons.mp h
    have htail : (rest.map fun other => Event.drained other
          ((state.drain phase).2.inPhase other).reverse) =
        rest.map fun other => .drained other (state.inPhase other).reverse := by
      apply List.map_congr_left
      intro other hother
      have hne : other ≠ phase := fun he => hphase (he ▸ hother)
      rw [inPhase_drain hne]
    simp only [drainAll,List.map_cons,ih hrest,htail]
    rfl

theorem drainAll_emitted {phases : List Phase} (h : phases.Nodup) (state : State) :
    (drainAll phases state).1.flatMap Event.emitted =
      phases.flatMap fun phase => (state.inPhase phase).reverse := by
  rw [drainAll_events h,List.flatMap_map]
  rfl

theorem drainAll_discarded (phases : List Phase) (state : State) :
    (drainAll phases state).2.discarded = state.discarded := by
  induction phases generalizing state with
  | nil => rfl
  | cons phase rest ih => exact ih _

theorem drainAll_pending (phases : List Phase) (state : State) :
    (drainAll phases state).2.pending =
      state.pending.filter (!phases.contains ·.statement.phase) := by
  induction phases generalizing state with
  | nil => exact (List.filter_eq_self.mpr fun _ _ => rfl).symm
  | cons phase rest ih =>
    simp only [drainAll,ih,drain,take,List.filter_filter]
    apply List.filter_congr
    intro p _
    rw [List.contains_cons,Bool.not_or,Bool.and_comm]

theorem drainAll_remaining (state : State) :
    (drainAll Phase.trailing state).2.remaining = state.leftover := by
  have hfilter : (fun p : Placed => !Phase.trailing.contains p.statement.phase) =
      fun p => p.statement.phase == .initialization := by
    funext p
    cases p.statement.phase <;> rfl
  simp only [remaining,drainAll_discarded,drainAll_pending,hfilter]
  rfl

theorem run_of_failure {failure : Failure}
    (h : (state.passes policy 1 required).failure = some failure) :
    state.run policy required = ⟨(state.passes policy 1 required).events,some failure⟩ := by
  simp [run,h]

theorem emitted_close (state : State) : state.close.events.flatMap Event.emitted = [] := by
  unfold close
  split <;> rfl

theorem failure_close (state : State) : state.close.failure =
    if state.remaining.isEmpty then none
    else some (.unresolved (state.remaining.map (.ofStatement ·.statement))) := by
  unfold close
  split <;> rfl

/-- A run whose passes do not fail emits after them what is pending outside the initialization. -/
theorem run_emitted (h : (state.passes policy 1 required).failure = none) :
    (state.run policy required).emitted =
      (state.passes policy 1 required).events.flatMap Event.emitted ++
        (state.passes policy 1 required).state.trailing := by
  simp only [run,h,Run.emitted,List.flatMap_append,emitted_close,List.append_nil,
    drainAll_emitted Phase.nodup_trailing]
  rfl

theorem run_failure (h : (state.passes policy 1 required).failure = none) :
    (state.run policy required).failure =
      if (state.passes policy 1 required).state.leftover.isEmpty then none
      else some (.unresolved
        ((state.passes policy 1 required).state.leftover.map (.ofStatement ·.statement))) := by
  simp only [run,h,failure_close,drainAll_remaining]

/-- Runs that leave the same over end alike. -/
theorem run_failure_congr {other : State} {others : List Identifier}
    (h : (state.passes policy 1 required).failure = none)
    (hother : (other.passes policy 1 others).failure = none)
    (hleft : (state.passes policy 1 required).state.leftover.map
        (fun p => Leftover.ofStatement p.statement) =
      (other.passes policy 1 others).state.leftover.map
        (fun p => Leftover.ofStatement p.statement)) :
    (state.run policy required).failure = (other.run policy others).failure := by
  have hempty := congrArg List.isEmpty hleft
  simp only [List.isEmpty_map] at hempty
  rw [run_failure h,run_failure hother,hempty,hleft]

/-- A run succeeds when its passes do not fail and leave nothing over. -/
theorem run_failure_eq_none_iff : (state.run policy required).failure = none ↔
    (state.passes policy 1 required).failure = none ∧
      (state.passes policy 1 required).state.leftover = [] := by
  cases h : (state.passes policy 1 required).failure with
  | none => simp [run_failure h]
  | some failure => simp [run_of_failure h]

/-- A run ends unresolved when its passes do not fail and leave something over. -/
theorem run_failure_eq_unresolved_iff {remaining : List Leftover} :
    (state.run policy required).failure = some (.unresolved remaining) ↔
      (state.passes policy 1 required).failure = none ∧
        (state.passes policy 1 required).state.leftover ≠ [] ∧
        remaining =
          (state.passes policy 1 required).state.leftover.map (.ofStatement ·.statement) := by
  cases h : (state.passes policy 1 required).failure with
  | none =>
    rw [run_failure h]
    by_cases hempty : (state.passes policy 1 required).state.leftover = []
    · simp [hempty]
    · rw [if_neg (by simpa using hempty),Option.some.injEq,Failure.unresolved.injEq]
      exact ⟨fun he => ⟨rfl,hempty,he.symm⟩,fun he => he.2.2.symm⟩
  | some failure =>
    obtain ⟨x,_,count,rfl,_,_⟩ := passes_failure h
    simp [run_of_failure h]

end State

namespace Run
variable {document : Document} {run : Run}

theorem listing_eq_ok_iff {code : List String} : run.listing document = .ok code ↔
    run.failure = none ∧ code = run.emitted.map fun p => document.code p.statement := by
  unfold listing
  cases run.failure with
  | none => simp [eq_comm]
  | some failure => simp

theorem exists_listing_eq_ok_iff :
    (∃ code, run.listing document = .ok code) ↔ run.failure = none := by
  simp only [listing_eq_ok_iff,exists_and_left,exists_eq,and_true]

theorem listing_eq_error_iff {failure : Failure} :
    run.listing document = .error failure ↔ run.failure = some failure := by
  unfold listing
  cases run.failure <;> simp

end Run

end ObjectGraph
