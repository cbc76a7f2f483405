import ObjectGraph.Proofs.Schedule.Conservation

/-! # Rejected declarations

A declaration is rejected when several pending statements declare its identifier. Under retention
this changes nothing, and the statements stay in the way of every later listing. The discarding policy
has taken them by then and does not record them, so that a later run never hears of them.
-/
namespace ObjectGraph

namespace State
variable {policy : Policy} {worklist required : List Identifier} {state s t : State}
variable {x y : Identifier} {p : Placed} {count : Nat} {failure : Failure}

theorem perform_declaration_eq_error_iff :
    (state.perform policy (.declaration x)).1 = .declaration (.error failure) ↔
      state.find x = .duplicate (state.declarationsOf x).length ∧
        failure = .duplicate x (state.declarationsOf x).length := by
  cases h : state.find x with
  | absent => simp [perform_declaration_of_absent policy h]
  | ready p => simp [perform_declaration_of_ready policy h]
  | blocked p => simp [perform_declaration_of_blocked policy h]
  | duplicate count =>
    rw [perform_declaration_of_duplicate policy h,(find_eq_duplicate_iff.mp h).1]
    simp [eq_comm]

/-- The state that a rejected declaration of `x` leaves under the discarding policy. -/
def forget (x : Identifier) (state : State) : State :=
  { state with pending := state.pendingBut x }

theorem perform_rejected_retain (h : state.find x = .duplicate count) :
    state.perform .retain (.declaration x) =
      (.declaration (.error (.duplicate x count)),state) := by
  simp [perform_declaration_of_duplicate .retain h,declare,h,settle]

theorem perform_rejected_discard (h : state.find x = .duplicate count) :
    state.perform .discard (.declaration x) =
      (.declaration (.error (.duplicate x count)),state.forget x) := by
  simp [perform_declaration_of_duplicate .discard h,declare,h,settle,forget]

theorem find_forget (state : State) (x : Identifier) : (state.forget x).find x = .absent := by
  rw [find_eq_absent_iff,declarationsOf,forget,pendingBut,List.filter_filter,
    List.filter_eq_nil_iff]
  intro p _
  simp

/-! What turns do with several declarations of one identifier. -/

theorem declarationsOf_declare (hne : x ≠ y) (policy : Policy) (state : State) :
    (state.declare policy y).2.declarationsOf x = state.declarationsOf x := by
  unfold declarationsOf
  rcases declare_pending policy y state with h | h
  · rw [h]
  · rw [h,pendingBut,List.filter_filter]
    apply List.filter_congr
    intro p _
    cases hx : p.statement.introduces x with
    | false => rfl
    | true =>
      cases hy : p.statement.introduces y with
      | false => rfl
      | true => exact absurd (Statement.eq_of_introduces hx hy) hne

theorem declarationsOf_configure (x y : Identifier) (state : State) :
    (state.configure y).2.declarationsOf x = state.declarationsOf x := by
  simp only [configure,take,declarationsOf,List.filter_filter]
  apply List.filter_congr
  intro p _
  cases hx : p.statement.introduces x with
  | false => rfl
  | true => simp [(Statement.introduces_eq_true_iff.mp hx).1]

/-- No turn takes one of several declarations. -/
theorem Turns.declarationsOf_eq {events : List Event} (h : Turns policy worklist s events t)
    (hseveral : 1 < (s.declarationsOf x).length) : t.declarationsOf x = s.declarationsOf x := by
  -- A turn takes only a declaration that stands alone, so it is not one at `x`.
  have hne : ∀ {u : State} {y : Identifier} {p : Placed}, 1 < (u.declarationsOf x).length →
      u.declarationsOf y = [p] → x ≠ y := by
    intro u y p hlength hp he
    subst he
    simp [hp] at hlength
  induction h with
  | refl => rfl
  | @declared s t y p events _ hfind _ ih =>
    have hxy := hne hseveral (find_eq_ready_iff.mp hfind).1
    have hkept : (s.emit policy y).2.declarationsOf x = s.declarationsOf x := by
      rw [emit,declarationsOf_configure,declarationsOf_declare hxy]
    rw [ih (hkept ▸ hseveral),hkept]
  | @notReady s t y p events _ hfind _ ih =>
    have hxy := hne hseveral (find_eq_blocked_iff.mp hfind).1
    have hkept := declarationsOf_declare hxy policy s
    rw [ih (hkept ▸ hseveral),hkept]
  | passEnded _ _ _ _ ih => exact ih hseveral

theorem mem_leftover_of_introduces (hp : p ∈ state.declarationsOf x) : p ∈ state.leftover := by
  obtain ⟨hp,hx⟩ := List.mem_filter.mp hp
  have hphase := (Statement.introduces_eq_true_iff.mp hx).1
  exact List.mem_append_right _ (List.mem_filter.mpr ⟨hp,beq_iff_eq.mpr hphase⟩)

/-- While several pending statements declare one identifier, there is no listing. -/
theorem run_failure_of_several (hseveral : 1 < (state.declarationsOf x).length) :
    (state.run policy required).failure ≠ none := by
  intro hnone
  obtain ⟨hpasses,hleft⟩ := run_failure_eq_none_iff.mp hnone
  have hturns := passes_turns (List.Subset.refl required) hpasses
  have hpos : 0 < (state.declarationsOf x).length := by omega
  obtain ⟨p,hp⟩ := List.exists_mem_of_length_pos hpos
  rw [← hturns.declarationsOf_eq hseveral] at hp
  have hmem := mem_leftover_of_introduces hp
  rw [hleft] at hmem
  exact List.not_mem_nil hmem

/-! What a run emits was pending before it. -/

theorem Turns.emitted_subset {events : List Event} (h : Turns policy worklist s events t) :
    events.flatMap Event.emitted ⊆ s.pending := by
  induction h with
  | refl => exact List.nil_subset _
  | @declared s t y p events _ hfind _ ih =>
    intro q hq
    simp only [List.flatMap_cons,Event.emitted,List.mem_append,List.mem_singleton] at hq
    rcases hq with rfl | hq | hq
    · exact (List.mem_filter.mp (mem_of_ready hfind)).1
    · exact (declare_pending_sublist policy y s).subset (List.mem_filter.mp hq).1
    · exact (emit_pending_sublist policy y s).subset (ih hq)
  | notReady _ _ _ ih => exact fun q hq => (declare_pending_sublist _ _ _).subset (ih hq)
  | passEnded _ _ _ _ ih => exact ih

theorem run_emitted_subset (hnone : (state.run policy required).failure = none) :
    (state.run policy required).emitted ⊆ state.pending := by
  have hpasses := (run_failure_eq_none_iff.mp hnone).1
  have hturns := passes_turns (List.Subset.refl required) hpasses
  intro p hp
  rw [run_emitted hpasses,List.mem_append] at hp
  rcases hp with hp | hp
  · exact hturns.emitted_subset hp
  · exact hturns.pending_sublist.subset (mem_trailing.mp hp).1

end State

/-- A state after a rejected declaration of `x` that is as good as the one before it. -/
structure State.Intact (policy : Policy) (document : Document) (x : Identifier) (failure : Failure)
    (before after : State) : Prop where
  pending : after.pending = before.pending
  discarded : after.discarded = before.discarded
  declared : after.declared = before.declared
  again : after.perform policy (.declaration x) = (.declaration (.error failure),after)
  complete : ∀ code, (after.run policy document.required).listing document = .ok code →
    before.declarationsOf x ⊆ (after.run policy document.required).emitted

namespace Document
variable {document : Document} {policy : Policy} {state : State} {x : Identifier} {count : Nat}
variable {failure : Failure}

theorem listing_of_several (hseveral : 1 < (state.declarationsOf x).length) (code : List String) :
    (state.run policy document.required).listing document ≠ .ok code := by
  intro hcode
  exact State.run_failure_of_several hseveral (Run.listing_eq_ok_iff.mp hcode).1

theorem intact_retain (h : state.find x = .duplicate count) :
    State.Intact .retain document x (.duplicate x count) state state where
  pending := rfl
  discarded := rfl
  declared := rfl
  again := State.perform_rejected_retain h
  complete := by
    obtain ⟨rfl,hseveral⟩ := State.find_eq_duplicate_iff.mp h
    intro code hcode
    exact absurd hcode (listing_of_several hseveral code)

theorem perform_forget (policy : Policy) (state : State) (x : Identifier) :
    (state.forget x).perform policy (.declaration x) =
      (.declaration (.ok none),state.forget x) :=
  State.perform_declaration_of_absent policy (state.find_forget x)

theorem not_mem_emitted_forget {code : List String} {p : Placed}
    (hcode : ((state.forget x).run policy document.required).listing document = .ok code)
    (hp : p ∈ state.declarationsOf x) :
    p ∉ ((state.forget x).run policy document.required).emitted := by
  intro hemitted
  have hpending := State.run_emitted_subset (Run.listing_eq_ok_iff.mp hcode).1 hemitted
  have hother := (List.mem_filter.mp hpending).2
  rw [(List.mem_filter.mp hp).2] at hother
  cases hother

/-- A rejected declaration leaves its state intact under retention and only then; no listing comes from
that state. The discarding policy loses the declarations: the next call finds none of them, and neither
does a run, whose listing is complete without them. -/
theorem intact_of_rejected_iff {after : State}
    (h : state.perform policy (.declaration x) = (.declaration (.error failure),after)) :
    (State.Intact policy document x failure state after ↔ policy = .retain) ∧
      failure = .duplicate x (state.declarationsOf x).length ∧
      after.discarded = state.discarded ∧ after.declared = state.declared ∧
      (policy = .retain → after = state ∧
        ∀ code, (after.run policy document.required).listing document ≠ .ok code) ∧
      (policy = .discard → after.pending = state.pendingBut x ∧
        after.perform policy (.declaration x) = (.declaration (.ok none),after) ∧
        ∀ code, (after.run policy document.required).listing document = .ok code →
          ∀ p ∈ state.declarationsOf x, p ∉ (after.run policy document.required).emitted) := by
  obtain ⟨hfind,hfailure⟩ := State.perform_declaration_eq_error_iff.mp (congrArg Prod.fst h)
  subst hfailure
  cases policy with
  | retain =>
    rw [State.perform_rejected_retain hfind] at h
    obtain rfl : state = after := congrArg Prod.snd h
    have hseveral := (State.find_eq_duplicate_iff.mp hfind).2
    refine ⟨iff_of_true (intact_retain hfind) rfl,rfl,rfl,rfl,?_,nofun⟩
    intro _
    exact ⟨rfl,listing_of_several hseveral⟩
  | discard =>
    rw [State.perform_rejected_discard hfind] at h
    obtain rfl : state.forget x = after := congrArg Prod.snd h
    refine ⟨iff_of_false ?_ nofun,rfl,rfl,rfl,nofun,?_⟩
    · intro hintact
      have hagain := hintact.again
      rw [perform_forget] at hagain
      cases hagain
    · intro _
      exact ⟨rfl,perform_forget .discard state x,fun _ hcode _ hp => not_mem_emitted_forget hcode hp⟩

/-- A document with two declarations of a required panel and configuration for it. -/
def twins : Document where
  statements := [
    .constructing ⟨"panel"⟩ "Panel" [],
    .plain .configuration (.assign ⟨"panel"⟩ "size" (.literal "8")),
    .constructing ⟨"panel"⟩ "Stack" []]
  references := [.required ⟨"panel"⟩]
  registry := .empty

/-- Under retention the panel can be asked for again and again. -/
theorem intact_twins :
    let state := ((State.start twins).performAll .retain [.configuration ⟨"panel"⟩]).2
    state.pending.map (·.position) = [0,2] ∧
      state.perform .retain (.declaration ⟨"panel"⟩) =
        (.declaration (.error (.duplicate ⟨"panel"⟩ 2)),state) ∧
      State.Intact .retain twins ⟨"panel"⟩ (.duplicate ⟨"panel"⟩ 2) state state := by
  intro state
  have hreject : state.perform .retain (.declaration ⟨"panel"⟩) =
      (.declaration (.error (.duplicate ⟨"panel"⟩ 2)),state) := rfl
  exact ⟨by decide,hreject,(intact_of_rejected_iff hreject).1.mpr rfl⟩

/-- The discarding policy forgets both panels, and then lists the configuration of none. -/
theorem twins_not_intact :
    let rejected := (State.start twins).perform .discard (.declaration ⟨"panel"⟩)
    rejected.1 = .declaration (.error (.duplicate ⟨"panel"⟩ 2)) ∧
      rejected.2.pending.map (·.position) = [1] ∧ rejected.2.discarded = [] ∧
      (rejected.2.run .discard twins.required).listing twins = .ok ["panel.size = 8"] ∧
      ¬State.Intact .discard twins ⟨"panel"⟩ (.duplicate ⟨"panel"⟩ 2) (State.start twins)
        rejected.2 := by
  intro rejected
  refine ⟨rfl,by decide,rfl,by decide +kernel,?_⟩
  intro hintact
  have hlength : 1 = 3 := congrArg List.length hintact.pending
  cases hlength

end Document

end ObjectGraph
