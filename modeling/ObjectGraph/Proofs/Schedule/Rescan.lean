import ObjectGraph.Proofs.Schedule.Attempts

/-! # Rounds over the whole worklist

The passes drop what they resolve from the worklist, and they end with the first one that resolves
nothing. The naive schedule goes round the whole worklist as many times as it is long. It finds
nothing more: a resolved identifier has no pending declaration, and a round without effect has none
ever after.
-/
namespace ObjectGraph

/-- What has been emitted and the state that has been reached, or why this has failed. -/
abbrev Outcome := Except Failure (List Placed × State)

namespace Outcome
variable (ps qs : List Placed) (outcome : Outcome)

/-- The outcome with statements that have been emitted before. -/
def behind : Outcome := outcome.map fun later => (ps ++ later.1,later.2)

@[simp] theorem behind_error (failure : Failure) : behind ps (.error failure) = .error failure := rfl
@[simp] theorem behind_ok (state : State) : behind ps (.ok (qs,state)) = .ok (ps ++ qs,state) := rfl

@[simp] theorem behind_nil : behind [] outcome = outcome := by
  cases outcome <;> rfl

end Outcome

namespace Progress

def outcome (progress : Progress) : Outcome :=
  match progress.failure with
  | some failure => .error failure
  | none => .ok (progress.events.flatMap Event.emitted,progress.state)

variable {progress : Progress} {failure : Failure}

theorem outcome_of_failure (h : progress.failure = some failure) :
    progress.outcome = .error failure := by
  rw [outcome,h]

theorem outcome_of_none (h : progress.failure = none) :
    progress.outcome = .ok (progress.events.flatMap Event.emitted,progress.state) := by
  rw [outcome,h]

@[simp] theorem outcome_waiting (x : Identifier) (progress : Progress) :
    (progress.waiting x).outcome = progress.outcome := rfl

@[simp] theorem outcome_after (events : List Event) (progress : Progress) :
    (progress.after events).outcome =
      progress.outcome.behind (events.flatMap Event.emitted) := by
  rw [outcome,outcome,failure_after]
  cases progress.failure <;> simp

end Progress

namespace State
variable {policy : Policy} {worklist others : List Identifier} {state s t : State} {x : Identifier}
variable {number count : Nat} {keep : Identifier → Bool}

/-- Attempts at identifiers in turn, up to the first that fails. -/
def round (policy : Policy) (state : State) : List Identifier → Outcome
  | [] => .ok ([],state)
  | x :: rest =>
    match state.attempt policy x with
    | (.error failure,_) => .error failure
    | (.ok ps,next) => (next.round policy rest).behind ps

/-- Rounds over one and the same worklist, up to the first attempt that fails. -/
def rounds (policy : Policy) (worklist : List Identifier) : Nat → State → Outcome
  | 0,state => .ok ([],state)
  | count + 1,state =>
    match state.round policy worklist with
    | .error failure => .error failure
    | .ok (ps,next) => (rounds policy worklist count next).behind ps

theorem rounds_of_error {failure : Failure} (hcount : 0 < count)
    (h : state.round policy worklist = .error failure) :
    state.rounds policy worklist count = .error failure := by
  obtain ⟨count,rfl⟩ := Nat.exists_eq_add_one.mpr hcount
  rw [rounds,h]

theorem rounds_of_ok {ps : List Placed} (hcount : 0 < count)
    (h : state.round policy worklist = .ok (ps,t)) :
    state.rounds policy worklist count = (t.rounds policy worklist (count - 1)).behind ps := by
  obtain ⟨count,rfl⟩ := Nat.exists_eq_add_one.mpr hcount
  rw [rounds,h]
  rfl

theorem round_of_absent (h : state.find x = .absent) :
    state.round policy (x :: worklist) = state.round policy worklist := by
  simp [round,attempt_of_absent policy h]

theorem round_eq_pass (policy : Policy) (worklist : List Identifier) (state : State) :
    state.round policy worklist = (state.pass policy worklist).outcome := by
  induction worklist generalizing state with
  | nil => rfl
  | cons x rest ih =>
    cases hfind : state.find x with
    | absent => rw [round_of_absent hfind,pass_of_absent hfind,ih,Progress.outcome_waiting]
    | ready p => simp [round,attempt_of_ready policy hfind,pass_of_ready hfind,ih,Event.emitted]
    | blocked p => simp [round,attempt_of_blocked policy hfind,pass_of_blocked hfind,ih,Event.emitted]
    | duplicate count =>
      simp [round,attempt_of_duplicate policy hfind,pass_of_duplicate hfind,Progress.outcome]

/-! Identifiers without a pending declaration make no difference to a round. -/

theorem Skips.round_filter (h : state.Skips keep worklist) :
    state.round policy (worklist.filter keep) = state.round policy worklist := by
  induction worklist generalizing state with
  | nil => rfl
  | cons x rest ih =>
    have hrest := List.subset_cons_self x rest
    cases hkeep : keep x with
    | false =>
      have hfind := h.find_eq_absent List.mem_cons_self hkeep
      rw [List.filter_cons_of_neg (by simp [hkeep]),round_of_absent hfind]
      exact ih (h.of_sublist hrest (.refl _))
    | true =>
      rw [List.filter_cons_of_pos hkeep]
      cases hfind : state.find x with
      | absent =>
        rw [round_of_absent hfind,round_of_absent hfind]
        exact ih (h.of_sublist hrest (.refl _))
      | ready p =>
        have hnext := ih (h.of_sublist hrest (emit_pending_sublist policy x state))
        simp only [round,attempt_of_ready policy hfind,hnext]
      | blocked p =>
        have hnext := ih (h.of_sublist hrest (declare_pending_sublist policy x state))
        simp only [round,attempt_of_blocked policy hfind,hnext]
      | duplicate count => simp only [round,attempt_of_duplicate policy hfind]

theorem skips_awaits (state : State) (worklist : List Identifier) :
    state.Skips state.awaits worklist := fun _ _ => awaits_eq_false_iff.mp

/-- Two worklists with the same identifiers to be declared, in the same order. -/
theorem round_congr (h : worklist.filter state.awaits = others.filter state.awaits) :
    state.round policy worklist = state.round policy others := by
  rw [← (state.skips_awaits worklist).round_filter,h,(state.skips_awaits others).round_filter]

theorem filter_awaits_congr (hpending : t.pending.Sublist s.pending)
    (h : worklist.filter s.awaits = others.filter s.awaits) :
    worklist.filter t.awaits = others.filter t.awaits := by
  have hless : ∀ xs : List Identifier,
      xs.filter t.awaits = (xs.filter s.awaits).filter t.awaits := by
    intro xs
    rw [List.filter_filter]
    apply List.filter_congr
    intro x _
    cases hs : s.awaits x with
    | true => rw [Bool.and_true]
    | false => rw [awaits_of_sublist hpending hs,Bool.and_false]
  rw [hless,h,← hless]

/-! A round without effect is repeated without effect. -/

/-- No identifier of the worklist can be declared from a state, and to try changes nothing. -/
def Idle (policy : Policy) (state : State) (worklist : List Identifier) : Prop :=
  ∀ x ∈ worklist, state.attempt policy x = (.ok [],state)

theorem Idle.round (h : state.Idle policy worklist) :
    state.round policy worklist = .ok ([],state) := by
  induction worklist with
  | nil => rfl
  | cons x rest ih =>
    obtain ⟨hx,hrest⟩ := List.forall_mem_cons.mp h
    rw [State.round,hx]
    exact congrArg (Outcome.behind []) (ih hrest)

theorem Idle.rounds (h : state.Idle policy worklist) (count : Nat) :
    state.rounds policy worklist count = .ok ([],state) := by
  induction count with
  | zero => rfl
  | succ count ih =>
    rw [State.rounds,h.round]
    exact congrArg (Outcome.behind []) ih

theorem Idle.congr (h : state.Idle policy others)
    (hawaits : worklist.filter state.awaits = others.filter state.awaits) :
    state.Idle policy worklist := by
  intro x hx
  cases hx' : state.awaits x with
  | true =>
    have hmem := List.mem_filter.mpr ⟨hx,hx'⟩
    rw [hawaits] at hmem
    exact h x (List.mem_filter.mp hmem).1
  | false => exact attempt_of_absent policy (awaits_eq_false_iff_absent.mp hx')

theorem awaits_drop {p : Placed} (h : state.find x = .blocked p) :
    (state.declare .discard x).2.awaits x = false := by
  simp [awaits_eq_false_iff,declare,h,settle,declarationsOf,pendingBut]

theorem pass_discard_awaits (hnone : (state.pass .discard worklist).failure = none) :
    ∀ x ∈ worklist, (state.pass .discard worklist).state.awaits x = false := by
  induction worklist generalizing state with
  | nil => exact fun _ hx => absurd hx List.not_mem_nil
  | cons y rest ih =>
    have hgone : ∀ t : State, t.awaits y = false →
        (t.pass .discard rest).state.awaits y = false :=
      fun t => awaits_of_sublist (pass_pending_sublist .discard rest t)
    cases h : state.find y with
    | absent =>
      rw [pass_of_absent h] at hnone ⊢
      have hy := hgone state (awaits_eq_false_iff_absent.mpr h)
      exact List.forall_mem_cons.mpr ⟨hy,ih hnone⟩
    | ready p =>
      rw [pass_of_ready h] at hnone ⊢
      have hy := hgone (state.emit .discard y).2 (awaits_eq_false_iff.mpr (declarationsOf_emit h))
      exact List.forall_mem_cons.mpr ⟨hy,ih hnone⟩
    | blocked p =>
      rw [pass_of_blocked h] at hnone ⊢
      have hy := hgone (state.declare .discard y).2 (awaits_drop h)
      exact List.forall_mem_cons.mpr ⟨hy,ih hnone⟩
    | duplicate count => simp [pass_of_duplicate h] at hnone

/-- After a pass that resolves nothing there is nothing left to do. -/
theorem pass_idle (hnone : (state.pass policy worklist).failure = none)
    (hlength : worklist.length ≤ (state.pass policy worklist).blocked.length) :
    (state.pass policy worklist).state.Idle policy worklist := by
  cases policy with
  | retain =>
    obtain ⟨hstate,hfind⟩ := pass_fruitless hnone hlength
    rw [hstate]
    intro x hx
    rcases hfind x hx with h | ⟨p,h⟩
    · exact attempt_of_absent .retain h
    · rw [attempt_of_blocked .retain h,declare_of_blocked_retain h]
  | discard =>
    intro x hx
    have hgone := pass_discard_awaits hnone x hx
    exact attempt_of_absent .discard (awaits_eq_false_iff_absent.mp hgone)

/-- Passes over a worklist do what rounds over a larger one do, if it holds no more identifiers to be
declared and the rounds are not too few. -/
theorem rounds_eq_passes (hawaits : others.filter state.awaits = worklist.filter state.awaits) :
    ∀ count, worklist.length ≤ count →
      state.rounds policy others count = (state.passes policy number worklist).outcome := by
  -- By induction on the passes. A pass that resolves something shortens the worklist, and one round
  -- is used for it.
  fun_induction passes policy number worklist state with
  | case1 number worklist state hempty =>
    intro count _
    rw [List.isEmpty_iff] at hempty
    subst hempty
    have hidle : state.Idle policy [] := fun _ hx => absurd hx List.not_mem_nil
    exact (hidle.congr hawaits).rounds count
  | case2 number worklist state hne done hfailed =>
    intro count hcount
    have hpos := List.length_pos_iff.mpr (mt List.isEmpty_iff.mpr hne)
    obtain ⟨failure,hfailure⟩ := Option.isSome_iff_exists.mp hfailed
    have hround := (round_congr hawaits).trans (round_eq_pass policy worklist state)
    rw [Progress.outcome_of_failure hfailure] at hround
    rw [rounds_of_error (Nat.lt_of_lt_of_le hpos hcount) hround,
      Progress.outcome_of_failure hfailure]
  | case3 number worklist state hne done hfailed resolved ended hlt ih =>
    intro count hcount
    have hpos := Nat.zero_lt_of_lt hlt
    have hnone : done.failure = none := by simpa using hfailed
    have hround := (round_congr hawaits).trans (round_eq_pass policy worklist state)
    rw [Progress.outcome_of_none hnone] at hround
    have hpending := pass_pending_sublist policy worklist state
    have hnext := (filter_awaits_congr hpending hawaits).trans (pass_blocked_awaits hnone).symm
    rw [rounds_of_ok (Nat.lt_of_lt_of_le hpos hcount) hround,ih hnext (count - 1) (by omega),
      Progress.outcome_after]
    simp [ended,Event.emitted]
  | case4 number worklist state hne done hfailed resolved ended hlt =>
    intro count hcount
    have hpos := List.length_pos_iff.mpr (mt List.isEmpty_iff.mpr hne)
    have hnone : done.failure = none := by simpa using hfailed
    have hround := (round_congr hawaits).trans (round_eq_pass policy worklist state)
    rw [Progress.outcome_of_none hnone] at hround
    have hpending := pass_pending_sublist policy worklist state
    -- What the last pass leaves is tried in vain ever after.
    have hidle : done.state.Idle policy others :=
      (pass_idle hnone (Nat.not_lt.mp hlt)).congr (filter_awaits_congr hpending hawaits)
    rw [rounds_of_ok (Nat.lt_of_lt_of_le hpos hcount) hround,hidle.rounds,Outcome.behind_ok]
    simp [Progress.outcome,hnone,ended,Event.emitted]

/-- The end of a schedule that has emitted some statements: the trailing phases are drained, and nothing
may remain. -/
def finish (document : Document) (emitted : List Placed) (state : State) :
    Except Failure (List String) :=
  let trailing := drainAll Phase.trailing state
  match trailing.2.close.failure with
  | some failure => .error failure
  | none =>
    .ok ((emitted ++ trailing.1.flatMap Event.emitted).map fun p => document.code p.statement)

end State

/-- A listing, or its failure, from what comes before the trailing phases. -/
def Outcome.listing (document : Document) : Outcome → Except Failure (List String)
  | .error failure => .error failure
  | .ok (emitted,state) => state.finish document emitted

theorem State.listing_run (document : Document) (policy : Policy) (required : List Identifier)
    (state : State) : (state.run policy required).listing document =
      (state.passes policy 1 required).outcome.listing document := by
  simp only [run]
  generalize state.passes policy 1 required = progress
  cases h : progress.failure with
  | some failure =>
    rw [Progress.outcome_of_failure h]
    rfl
  | none =>
    rw [Progress.outcome_of_none h]
    simp only [Outcome.listing,finish]
    generalize drainAll Phase.trailing progress.state = trailing
    cases trailing.2.close.failure with
    | none => simp [Run.listing,Run.emitted,emitted_close]
    | some failure => simp [Run.listing]

namespace Document

/-- The naive schedule: as many rounds over all required identifiers as there are of them. -/
def rescan (policy : Policy) (document : Document) : Except Failure (List String) :=
  ((State.start document).rounds policy document.required document.required.length).listing document

/-- The schedule with the shrinking worklist has the same result as the naive one. -/
theorem rescan_eq_listing (document : Document) (policy : Policy) :
    document.rescan policy = document.listing policy := by
  rw [rescan,listing,run,State.listing_run,State.rounds_eq_passes rfl _ (Nat.le_refl _)]

/-- One round less is not enough. -/
example : ((State.start late).rounds .retain late.required 1).listing late ≠
    late.listing .retain := by
  decide +kernel

end Document

end ObjectGraph
