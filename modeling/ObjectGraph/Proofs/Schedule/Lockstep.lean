import Mathlib.Data.List.Basic
import ObjectGraph.Proofs.Schedule.Ending

/-! # Schedules in lockstep

Two states are in lockstep if a look at any identifier finds the same in both and leads to states in
lockstep again. Then their passes resolve the same identifiers and fail alike, even when one of them
does without the identifiers that nothing declares.
-/
namespace ObjectGraph

/-- Progresses that fail alike, or else end in related states with the same identifiers waiting, but
for those that the second one does without. -/
structure Progress.Agrees (sim : State → State → Prop) (keep : Identifier → Bool)
    (progress other : Progress) : Prop where
  failure : other.failure = progress.failure
  state : progress.failure = none → sim progress.state other.state
  blocked : progress.failure = none → other.blocked = progress.blocked.filter keep

namespace State
variable {policy : Policy} {worklist : List Identifier} {state s t : State} {number other : Nat}
variable {sim : State → State → Prop} {keep : Identifier → Bool}

/-! A single pass decides what passes do first. -/

theorem passes_of_failed {failure : Failure}
    (hfailed : (state.pass policy worklist).failure = some failure) :
    state.passes policy number worklist = state.pass policy worklist := by
  rw [passes]
  split
  · next hempty =>
    rw [List.isEmpty_iff] at hempty
    subst hempty
    rfl
  · simp [hfailed]

theorem passes_of_progress (hnone : (state.pass policy worklist).failure = none)
    (hlt : (state.pass policy worklist).blocked.length < worklist.length) :
    state.passes policy number worklist =
      ((state.pass policy worklist).state.passes policy (number + 1)
        (state.pass policy worklist).blocked).after
        ((state.pass policy worklist).events ++ [.passEnded number
          (worklist.length - (state.pass policy worklist).blocked.length)
          (state.pass policy worklist).blocked.length]) := by
  have hne : worklist.isEmpty = false := by
    cases worklist with
    | nil => cases hlt
    | cons x rest => rfl
  rw [passes]
  simp [hne,hnone,hlt]

theorem passes_of_last (hne : worklist ≠ []) (hnone : (state.pass policy worklist).failure = none)
    (hle : worklist.length ≤ (state.pass policy worklist).blocked.length) :
    state.passes policy number worklist =
      { state.pass policy worklist with
        events := (state.pass policy worklist).events ++ [.passEnded number
          (worklist.length - (state.pass policy worklist).blocked.length)
          (state.pass policy worklist).blocked.length] } := by
  rw [passes,if_neg (mt List.isEmpty_iff.mp hne)]
  simp only [hnone,Nat.not_lt.mpr hle,Option.isSome_none,Bool.false_eq_true,if_false]

theorem passes_of_fruitless (hnone : (state.pass policy worklist).failure = none)
    (hle : worklist.length ≤ (state.pass policy worklist).blocked.length) :
    ∃ events, state.passes policy number worklist =
      { state.pass policy worklist with events := events } := by
  by_cases hempty : worklist = []
  · subst hempty
    rw [passes]
    exact ⟨[],rfl⟩
  · exact ⟨_,passes_of_last hempty hnone hle⟩

/-- Nothing pending declares an identifier of the worklist that is not kept. -/
def Skips (state : State) (keep : Identifier → Bool) (worklist : List Identifier) : Prop :=
  ∀ x ∈ worklist, keep x = false → state.declarationsOf x = []

theorem Skips.find_eq_absent {x : Identifier} (h : state.Skips keep worklist) (hx : x ∈ worklist)
    (hkeep : keep x = false) : state.find x = .absent :=
  find_eq_absent_iff.mpr (h x hx hkeep)

theorem Skips.of_sublist {rest : List Identifier} (h : s.Skips keep worklist)
    (hrest : rest ⊆ worklist) (hpending : t.pending.Sublist s.pending) : t.Skips keep rest := by
  intro x hx hkeep
  have hle := declarationsOf_sublist hpending x
  rw [h x (hrest hx) hkeep] at hle
  exact List.sublist_nil.mp hle

/-- An identifier that nothing declares waits through every pass. -/
theorem Skips.pass_blocked (h : state.Skips keep worklist)
    (hnone : (state.pass policy worklist).failure = none) :
    (state.pass policy worklist).blocked.filter (!keep ·) = worklist.filter (!keep ·) := by
  induction worklist generalizing state with
  | nil => rfl
  | cons x rest ih =>
    have hrest := List.subset_cons_self x rest
    cases hfind : state.find x with
    | absent =>
      rw [pass_of_absent hfind] at hnone ⊢
      have hnext := ih (h.of_sublist hrest (.refl _)) hnone
      simp only [Progress.blocked_waiting,List.filter_cons,hnext]
    | ready p =>
      have hkeep : keep x = true := by
        cases hkeep : keep x with
        | true => rfl
        | false => simp [h.find_eq_absent List.mem_cons_self hkeep] at hfind
      rw [pass_of_ready hfind] at hnone ⊢
      have hnext := ih (h.of_sublist hrest (emit_pending_sublist policy x state)) hnone
      rw [Progress.blocked_after,hnext,List.filter_cons_of_neg (by simp [hkeep])]
    | blocked p =>
      rw [pass_of_blocked hfind] at hnone ⊢
      have hnext := ih (h.of_sublist hrest (declare_pending_sublist policy x state)) hnone
      simp only [Progress.blocked_after,Progress.blocked_waiting,List.filter_cons,hnext]
    | duplicate count => simp [pass_of_duplicate hfind] at hnone

theorem Skips.length_lt_iff (h : state.Skips keep worklist)
    (hnone : (state.pass policy worklist).failure = none) :
    (state.pass policy worklist).blocked.length < worklist.length ↔
      ((state.pass policy worklist).blocked.filter keep).length < (worklist.filter keep).length := by
  have hskipped := congrArg List.length (h.pass_blocked hnone)
  have hworklist := worklist.length_eq_length_filter_add keep
  have hblocked := (state.pass policy worklist).blocked.length_eq_length_filter_add keep
  omega

/-- A relation that a turn at any identifier preserves, and under which it finds the same. -/
structure Lockstep (policy : Policy) (sim : State → State → Prop) : Prop where
  absent : ∀ {s t : State} {x : Identifier}, sim s t → s.find x = .absent → t.find x = .absent
  ready : ∀ {s t : State} {x : Identifier} {p : Placed}, sim s t → s.find x = .ready p →
    ∃ q, t.find x = .ready q ∧ sim (s.emit policy x).2 (t.emit policy x).2
  blocked : ∀ {s t : State} {x : Identifier} {p : Placed}, sim s t → s.find x = .blocked p →
    ∃ q, t.find x = .blocked q ∧ sim (s.declare policy x).2 (t.declare policy x).2
  duplicate : ∀ {s t : State} {x : Identifier} {count : Nat}, sim s t →
    s.find x = .duplicate count → t.find x = .duplicate count

theorem Lockstep.pass (h : Lockstep policy sim) (hsim : sim s t) (hskips : s.Skips keep worklist) :
    (s.pass policy worklist).Agrees sim keep (t.pass policy (worklist.filter keep)) := by
  induction worklist generalizing s t with
  | nil => exact ⟨rfl,fun _ => hsim,fun _ => rfl⟩
  | cons x rest ih =>
    have hrest := List.subset_cons_self x rest
    cases hkeep : keep x with
    | false =>
      have hfind := hskips.find_eq_absent List.mem_cons_self hkeep
      obtain ⟨hfailure,hstate,hblocked⟩ := ih hsim (hskips.of_sublist hrest (.refl _))
      rw [pass_of_absent hfind,List.filter_cons_of_neg (by simp [hkeep])]
      refine ⟨hfailure,hstate,fun hnone => ?_⟩
      rw [hblocked hnone,Progress.blocked_waiting,List.filter_cons_of_neg (by simp [hkeep])]
    | true =>
      rw [List.filter_cons_of_pos hkeep]
      cases hfind : s.find x with
      | absent =>
        obtain ⟨hfailure,hstate,hblocked⟩ := ih hsim (hskips.of_sublist hrest (.refl _))
        rw [pass_of_absent hfind,pass_of_absent (h.absent hsim hfind)]
        refine ⟨hfailure,hstate,fun hnone => ?_⟩
        simp only [Progress.blocked_waiting,hblocked hnone,List.filter_cons_of_pos hkeep]
      | ready p =>
        obtain ⟨q,hq,hnext⟩ := h.ready hsim hfind
        have hpending := emit_pending_sublist policy x s
        obtain ⟨hfailure,hstate,hblocked⟩ := ih hnext (hskips.of_sublist hrest hpending)
        rw [pass_of_ready hfind,pass_of_ready hq]
        exact ⟨hfailure,hstate,hblocked⟩
      | blocked p =>
        obtain ⟨q,hq,hnext⟩ := h.blocked hsim hfind
        have hpending := declare_pending_sublist policy x s
        obtain ⟨hfailure,hstate,hblocked⟩ := ih hnext (hskips.of_sublist hrest hpending)
        rw [pass_of_blocked hfind,pass_of_blocked hq]
        refine ⟨hfailure,hstate,fun hnone => ?_⟩
        simp only [Progress.blocked_after,Progress.blocked_waiting,hblocked hnone,
          List.filter_cons_of_pos hkeep]
      | duplicate count =>
        rw [pass_of_duplicate hfind,pass_of_duplicate (h.duplicate hsim hfind)]
        exact ⟨rfl,fun hnone => (nomatch hnone),fun _ => rfl⟩

/-- Passes in lockstep are as many and end alike. -/
theorem Lockstep.passes (h : Lockstep policy sim) (hskips : s.Skips keep worklist) :
    ∀ (t : State) (other : Nat), sim s t → (s.passes policy number worklist).Agrees sim keep
      (t.passes policy other (worklist.filter keep)) := by
  fun_induction State.passes policy number worklist s with
  | case1 number worklist s hempty =>
    intro t other hsim
    rw [List.isEmpty_iff] at hempty
    subst hempty
    rw [List.filter_nil,State.passes]
    exact ⟨rfl,fun _ => hsim,fun _ => rfl⟩
  | case2 number worklist s _ done hfailed =>
    intro t other hsim
    have hpass := h.pass hsim hskips
    obtain ⟨failure,hfailure⟩ := Option.isSome_iff_exists.mp hfailed
    rw [passes_of_failed (hpass.failure.trans hfailure)]
    exact hpass
  | case3 number worklist s _ done hfailed resolved ended hlt ih =>
    intro t other hsim
    have hpass := h.pass hsim hskips
    have hnone : (s.pass policy worklist).failure = none := by simpa using hfailed
    have hsublist := pass_blocked_sublist policy worklist s
    have hnext := hskips.of_sublist hsublist.subset
      (pass_pending_sublist policy worklist s)
    -- Both worklists lose the same identifiers, so either both make another pass or none does.
    have hlength := hskips.length_lt_iff hnone
    rw [← hpass.blocked hnone] at hlength
    rw [passes_of_progress (hpass.failure.trans hnone) (hlength.mp hlt),hpass.blocked hnone]
    obtain ⟨hfailure,hstate,hblocked⟩ := ih hnext _ (other + 1) (hpass.state hnone)
    exact ⟨hfailure,hstate,hblocked⟩
  | case4 number worklist s _ done hfailed resolved ended hlt =>
    intro t other hsim
    have hpass := h.pass hsim hskips
    have hnone : (s.pass policy worklist).failure = none := by simpa using hfailed
    have hlength := hskips.length_lt_iff hnone
    rw [← hpass.blocked hnone] at hlength
    obtain ⟨events,hpasses⟩ := passes_of_fruitless (hpass.failure.trans hnone)
      (Nat.not_lt.mp (mt hlength.mpr hlt))
    rw [hpasses]
    exact ⟨hpass.failure,hpass.state,hpass.blocked⟩

/-! Lockstep over one and the same worklist. -/

theorem Lockstep.pass_agrees (h : Lockstep policy sim) (hsim : sim s t)
    (worklist : List Identifier) :
    (s.pass policy worklist).Agrees sim (fun _ => true) (t.pass policy worklist) := by
  have hskips : s.Skips (fun _ => true) worklist := fun _ _ hkeep => nomatch hkeep
  have hagrees := h.pass hsim hskips
  rwa [List.filter_true] at hagrees

theorem Lockstep.pass_blocked (h : Lockstep policy sim) (hsim : sim s t)
    (hnone : (s.pass policy worklist).failure = none) :
    (t.pass policy worklist).blocked = (s.pass policy worklist).blocked :=
  ((h.pass_agrees hsim worklist).blocked hnone).trans (List.filter_true _)

theorem Lockstep.passes_agrees (h : Lockstep policy sim) (hsim : sim s t)
    (worklist : List Identifier) (number : Nat) :
    (s.passes policy number worklist).Agrees sim (fun _ => true)
      (t.passes policy number worklist) := by
  have hskips : s.Skips (fun _ => true) worklist := fun _ _ hkeep => nomatch hkeep
  have hagrees : (s.passes policy number worklist).Agrees sim (fun _ => true)
      (t.passes policy number (worklist.filter fun _ => true)) := h.passes hskips t number hsim
  rwa [List.filter_true] at hagrees

end State

end ObjectGraph
