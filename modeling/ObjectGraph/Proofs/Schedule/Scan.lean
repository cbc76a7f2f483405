import ObjectGraph.Proofs.Lists
import ObjectGraph.Proofs.Occurrences
import ObjectGraph.Proofs.Schedule.Demands
import ObjectGraph.Proofs.Schedule.Policies
import ObjectGraph.Proofs.Schedule.Rescan

/-! # One scan of the references

Under the discarding policy the first pass settles everything: it goes through the references once and
declares an identifier if what its declaration depends on is supplied or declared by then. What it
comes to too early is dropped, and with it all that depends on it. Later passes find nothing.
-/
namespace ObjectGraph

namespace State
variable {policy : Policy} {worklist : List Identifier} {state : State} {number : Nat}

theorem pass_of_gone (policy : Policy) (h : ∀ x ∈ worklist, state.awaits x = false) :
    state.pass policy worklist = ⟨[],state,worklist,none⟩ := by
  induction worklist with
  | nil => rfl
  | cons x rest ih =>
    obtain ⟨hx,hrest⟩ := List.forall_mem_cons.mp h
    rw [pass_of_absent (awaits_eq_false_iff_absent.mp hx),ih hrest]
    rfl

/-- Passes over identifiers without a pending declaration emit nothing. -/
theorem passes_of_gone (policy : Policy) (number : Nat)
    (h : ∀ x ∈ worklist, state.awaits x = false) :
    ∃ ended, ended.flatMap Event.emitted = [] ∧
      state.passes policy number worklist = ⟨ended,state,worklist,none⟩ := by
  by_cases hempty : worklist = []
  · subst hempty
    exact ⟨[],rfl,by rw [passes]; rfl⟩
  · have hpass := pass_of_gone policy h
    rw [passes_of_last hempty (by rw [hpass]) (by rw [hpass]),hpass]
    exact ⟨_,rfl,rfl⟩

/-- All that happens in passes that discard happens in the first of them. -/
theorem passes_discard_eq (number : Nat)
    (hnone : (state.pass .discard worklist).failure = none) :
    ∃ ended, ended.flatMap Event.emitted = [] ∧
      (state.passes .discard number worklist).events =
        (state.pass .discard worklist).events ++ ended ∧
      (state.passes .discard number worklist).state = (state.pass .discard worklist).state := by
  have hgone := pass_discard_awaits hnone
  by_cases hlt : (state.pass .discard worklist).blocked.length < worklist.length
  · have hsub := (pass_blocked_sublist .discard worklist state).subset
    obtain ⟨ended,hended,hlater⟩ := passes_of_gone .discard (number + 1) fun x hx =>
      hgone x (hsub hx)
    rw [passes_of_progress hnone hlt,hlater]
    refine ⟨_ ++ ended,?_,List.append_assoc _ _ _,rfl⟩
    simp [Event.emitted,hended]
  · by_cases hempty : worklist = []
    · subst hempty
      exact ⟨[],rfl,by rw [passes]; rfl,by rw [passes]; rfl⟩
    · rw [passes_of_last hempty hnone (Nat.not_lt.mp hlt)]
      exact ⟨_,rfl,rfl,rfl⟩

theorem not_mem_pass (number resolved blocked : Nat) :
    .passEnded number resolved blocked ∉ (state.pass policy worklist).events := by
  induction worklist generalizing state with
  | nil => exact List.not_mem_nil
  | cons x rest ih =>
    cases hfind : state.find x with
    | absent => rw [pass_of_absent hfind]; exact ih
    | ready p => rw [pass_of_ready hfind]; simpa using ih
    | blocked p => rw [pass_of_blocked hfind]; simpa using ih
    | duplicate count => rw [pass_of_duplicate hfind]; exact List.not_mem_nil

end State

namespace Document
variable {document : Document} {front : List Identifier} {history : History} {x : Identifier}
variable {p : Placed}

/-- What a scan of the identifiers in `front` has declared and dropped. -/
structure Scanned (document : Document) (front : List Identifier) (history : History) : Prop where
  declared_subset : history.declared ⊆ front
  dropped_eq : history.dropped = front.eraseDups.filter fun x =>
    x ∉ history.declared ∧ document.declarationsOf x ≠ []
  declared_iff : ∀ x ∈ front, ∀ p, document.declarationsOf x = [p] →
    (x ∈ history.declared ↔ ∀ y ∈ p.statement.dependencies, y ∈ document.supplied ∨
      y ∈ history.declared ∧ front.idxOf y < front.idxOf x)

theorem scanned_start (document : Document) : document.Scanned [] .start :=
  ⟨List.Subset.refl [],rfl,fun _ hx => absurd hx List.not_mem_nil⟩

namespace Scanned

theorem mem_dropped_iff (h : document.Scanned front history) : x ∈ history.dropped ↔
    x ∈ front ∧ x ∉ history.declared ∧ document.declarationsOf x ≠ [] := by
  rw [h.dropped_eq,List.mem_filter,List.mem_eraseDups,decide_eq_true_eq]

/-- A declaration that is still pending belongs to an identifier that the scan has not come to yet. -/
theorem not_mem_front (h : document.Scanned front history) (hdeclared : x ∉ history.declared)
    (hdropped : x ∉ history.dropped) (hx : document.declarationsOf x ≠ []) : x ∉ front :=
  fun hfront => hdropped (h.mem_dropped_iff.mpr ⟨hfront,hdeclared,hx⟩)

theorem absent (h : document.Scanned front history)
    (hfind : (document.after history).find x = .absent) :
    document.Scanned (front ++ [x]) history := by
  -- Either the scan has come to `x` before, or nothing declares it.
  have hx : x ∈ front ∨ document.declarationsOf x = [] := by
    rw [State.find_eq_absent_iff,declarationsOf_after] at hfind
    split at hfind
    · next hdone =>
      exact Or.inl (hdone.elim (fun hx => h.declared_subset hx) fun hx => (h.mem_dropped_iff.mp hx).1)
    · exact Or.inr hfind
  refine ⟨fun y hy => List.mem_append_left _ (h.declared_subset hy),?_,?_⟩
  · rw [h.dropped_eq]
    by_cases hfront : x ∈ front
    · rw [eraseDups_append_of_mem hfront]
    · rw [eraseDups_append_of_notMem hfront,List.filter_append]
      simp [hx.resolve_left hfront]
  · intro z hz p hp
    have hfront : z ∈ front := by
      rcases List.mem_append.mp hz with hz | hz
      · exact hz
      · obtain rfl := List.mem_singleton.mp hz
        exact hx.resolve_right (by simp [hp])
    simp only [idxOf_append_lt_iff hfront]
    exact h.declared_iff z hfront p hp

theorem ready (h : document.Scanned front history)
    (hfind : (document.after history).find x = .ready p) :
    document.Scanned (front ++ [x]) (history.declare x) := by
  obtain ⟨⟨hdeclared,hdropped⟩,hp,hdeps⟩ := find_after_eq_ready_iff.mp hfind
  have hfront := h.not_mem_front hdeclared hdropped (by simp [hp])
  refine ⟨?_,?_,?_⟩
  · intro y hy
    rcases List.mem_cons.mp hy with rfl | hy
    · exact List.mem_append_right _ List.mem_cons_self
    · exact List.mem_append_left _ (h.declared_subset hy)
  · have hne : ∀ y ∈ front.eraseDups, y ≠ x :=
      fun y hy he => hfront (he ▸ List.mem_eraseDups.mp hy)
    rw [eraseDups_append_of_notMem hfront,List.filter_append,
      List.filter_cons_of_neg (by simp [History.declare]),List.filter_nil,List.append_nil]
    refine h.dropped_eq.trans (List.filter_congr fun y hy => ?_)
    simp [History.declare,hne y hy]
  · intro z hz q hq
    rcases List.mem_append.mp hz with hz | hz
    · -- What stands behind `z` in the list is not declared before it, and `x` stands there.
      have hlt : ∀ y, y ∈ (history.declare x).declared ∧ front.idxOf y < front.idxOf z ↔
          y ∈ history.declared ∧ front.idxOf y < front.idxOf z := by
        intro y
        have hlast := List.idxOf_lt_length_of_mem hz
        have hx := List.idxOf_of_notMem hfront
        simp only [History.declare,List.mem_cons]
        grind
      have hne : z ≠ x := fun he => hfront (he ▸ hz)
      simp only [idxOf_append_lt_iff hz,hlt]
      rw [← h.declared_iff z hz q hq]
      simp [History.declare,hne]
    · obtain rfl := List.mem_singleton.mp hz
      rw [hp,List.singleton_inj] at hq
      subst hq
      refine iff_of_true List.mem_cons_self fun y hy => ?_
      refine (hdeps y hy).symm.imp_right fun hy => ⟨List.mem_cons_of_mem z hy,?_⟩
      exact (idxOf_append_lt_self_iff hfront).mpr (h.declared_subset hy)

theorem blocked (h : document.Scanned front history)
    (hfind : (document.after history).find x = .blocked p) :
    document.Scanned (front ++ [x]) (history.drop x) := by
  obtain ⟨⟨hdeclared,hdropped⟩,hp⟩ := find_after_of_blocked hfind
  have hfront := h.not_mem_front hdeclared hdropped (by simp [hp])
  refine ⟨fun y hy => List.mem_append_left _ (h.declared_subset hy),?_,?_⟩
  · rw [eraseDups_append_of_notMem hfront,List.filter_append]
    simp [History.drop,h.dropped_eq,hdeclared,hp]
  · intro z hz q hq
    rcases List.mem_append.mp hz with hz | hz
    · simp only [idxOf_append_lt_iff hz]
      exact h.declared_iff z hz q hq
    · obtain rfl := List.mem_singleton.mp hz
      rw [hp,List.singleton_inj] at hq
      subst hq
      refine iff_of_false hdeclared fun hdeps => ?_
      have hpermits : (document.after history).permits p.statement = true :=
        permits_after.mpr fun y hy => (hdeps y hy).symm.imp_left And.left
      rw [(State.find_eq_blocked_iff.mp hfind).2] at hpermits
      cases hpermits

/-- A pass that discards goes on with the scan. -/
theorem pass {rest : List Identifier} (h : document.Scanned front history)
    (hnone : ((document.after history).pass .discard rest).failure = none) :
    ∃ later, ((document.after history).pass .discard rest).state = document.after later ∧
      document.Scanned (front ++ rest) later := by
  induction rest generalizing front history with
  | nil => exact ⟨history,rfl,by rwa [List.append_nil]⟩
  | cons x rest ih =>
    rw [List.append_cons]
    cases hfind : (document.after history).find x with
    | absent =>
      rw [State.pass_of_absent hfind] at hnone ⊢
      exact ih (h.absent hfind) hnone
    | ready p =>
      rw [State.pass_of_ready hfind,emit_after .discard hfind] at hnone ⊢
      exact ih (h.ready hfind) hnone
    | blocked p =>
      rw [State.pass_of_blocked hfind,drop_after hfind] at hnone ⊢
      exact ih (h.blocked hfind) hnone
    | duplicate count => simp [State.pass_of_duplicate hfind] at hnone

theorem handles_iff (h : document.Scanned document.required history) {s : Statement}
    (hs : s ∈ document.statements) (hphase : s.phase = .initialization) :
    history.handles s = true ↔ ∃ x ∈ document.required, s.introduces x = true := by
  rw [History.handles_of_initialization hphase]
  constructor
  · rintro ⟨x,hx | hx,hsx⟩
    · exact ⟨x,h.declared_subset hx,hsx⟩
    · exact ⟨x,(h.mem_dropped_iff.mp hx).1,hsx⟩
  · rintro ⟨x,hx,hsx⟩
    refine ⟨x,?_,hsx⟩
    by_cases hdeclared : x ∈ history.declared
    · exact Or.inl hdeclared
    · obtain ⟨p,hp,rfl⟩ := exists_placed hs
      have hne := List.ne_nil_of_mem (mem_declarationsOf.mpr ⟨hp,hsx⟩)
      exact Or.inr (h.mem_dropped_iff.mpr ⟨hx,hdeclared,hne⟩)

end Scanned

/-- The initializations that are left over if a scan declares some identifiers: those of the other
required identifiers, in the order of the references, and those that declare nothing required. -/
def passedOver (document : Document) (declared : List Identifier) : List Statement :=
  (document.required.eraseDups.filter (· ∉ declared)).flatMap
      (fun x => document.statements.filter (·.introduces x)) ++
    document.statements.filter fun s =>
      s.phase = .initialization ∧ ∀ x ∈ document.required, s.introduces x = false

theorem passedOver_congr {declared others : List Identifier}
    (h : ∀ x, x ∈ declared ↔ x ∈ others) :
    document.passedOver declared = document.passedOver others := by
  simp only [passedOver,h]

/-- The dropped declarations are those of the required identifiers that are not declared. -/
theorem Scanned.flatMap_dropped (h : document.Scanned document.required history) :
    history.dropped.flatMap (fun x => document.statements.filter (·.introduces x)) =
      (document.required.eraseDups.filter (· ∉ history.declared)).flatMap
        fun x => document.statements.filter (·.introduces x) := by
  have hdropped : history.dropped =
      (document.required.eraseDups.filter (· ∉ history.declared)).filter
        (document.declarationsOf · ≠ []) := by
    rw [h.dropped_eq,List.filter_filter]
    simp only [Bool.decide_and,Bool.and_comm]
  rw [hdropped]
  -- An identifier without a declaration adds nothing.
  refine flatMap_filter_of_nil fun x _ hx => ?_
  rw [decide_eq_false_iff_not,not_not] at hx
  rw [← map_statement_declarationsOf,hx,List.map_nil]

theorem Scanned.map_leftover (h : document.Scanned document.required history) :
    (document.after history).leftover.map (·.statement) =
      document.passedOver history.declared := by
  rw [leftover_after,List.map_append,List.map_flatMap,passedOver]
  simp only [map_statement_declarationsOf,h.flatMap_dropped]
  rw [← document.map_statement_placed,List.filter_map]
  apply congrArg
  apply congrArg
  apply List.filter_congr
  intro p hp
  rw [Function.comp_apply,Bool.eq_iff_iff,Bool.and_eq_true,beq_iff_eq,decide_eq_true_eq]
  refine and_congr_right fun hphase => ?_
  rw [Bool.not_eq_true',← Bool.not_eq_true,h.handles_iff (mem_statements hp) hphase]
  simp

theorem pass_failure_eq_none (policy : Policy)
    (hunique : ∀ x ∈ document.required, document.statements.countP (·.introduces x) ≤ 1) :
    ((State.start document).pass policy document.required).failure = none := by
  have hnone := passes_failure_eq_none policy hunique
  cases hpass : ((State.start document).pass policy document.required).failure with
  | none => rfl
  | some failure =>
    rw [State.passes_of_failed hpass,hpass] at hnone
    cases hnone

/-- The passes that discard are a scan of all references. -/
theorem exists_scanned
    (hunique : ∀ x ∈ document.required, document.statements.countP (·.introduces x) ≤ 1) :
    ∃ history, document.Scanned document.required history ∧ document.Ordered history.declared ∧
      ((State.start document).passes .discard 1 document.required).state = document.after history ∧
      (document.run .discard).declared = history.declared.reverse := by
  have hpass := pass_failure_eq_none .discard hunique
  obtain ⟨_,_,_,hstate⟩ := State.passes_discard_eq 1 hpass
  rw [start_eq_after] at hpass
  obtain ⟨history,hscan,hscanned⟩ := document.scanned_start.pass hpass
  rw [← start_eq_after] at hscan
  -- The history of the turns has declared the same identifiers.
  obtain ⟨later,new,hordered,hlater,hdeclared,hblocks⟩ := passes_after
    (coherent_start document .discard) (passes_after_failure_eq_none .discard .start hunique)
  rw [← start_eq_after] at hlater hblocks
  rw [History.start,List.append_nil] at hdeclared
  have hsame : history.declared = later.declared :=
    List.append_cancel_right (congrArg State.declared (hscan.symm.trans (hstate.symm.trans hlater)))
  refine ⟨history,hscanned,hsame ▸ hordered.ordered,hstate.trans hscan,?_⟩
  rw [run_declared,Progress.declared,hblocks,hsame,hdeclared]
  exact (hdeclared ▸ hordered.ordered).filterMap_blocks

theorem nodup_placed (document : Document) : document.placed.Nodup := by
  apply List.Nodup.of_map (·.position)
  rw [map_position_placed]
  exact List.nodup_range

/-- A run whose passes do not fail emits the statements that it does not leave over. -/
theorem emitted_leftover_perm {policy : Policy}
    (hnone : ((State.start document).passes policy 1 document.required).failure = none) :
    ((document.run policy).emitted ++
      ((State.start document).passes policy 1 document.required).state.leftover).Perm
        document.placed := by
  have hperm := (State.run_leads hnone).perm
  rwa [State.drainAll_remaining] at hperm

theorem mem_emitted_iff {policy : Policy}
    (hnone : ((State.start document).passes policy 1 document.required).failure = none)
    (hp : p ∈ document.placed) : p ∈ (document.run policy).emitted ↔
      p ∉ ((State.start document).passes policy 1 document.required).state.leftover := by
  have hperm := emitted_leftover_perm hnone
  have hmem := List.mem_append.mp (hperm.mem_iff.mpr hp)
  have hdisjoint := List.nodup_append'.mp (hperm.nodup_iff.mpr document.nodup_placed)
  exact ⟨fun hemitted hleft => hdisjoint.2.2 hemitted hleft,fun hleft => hmem.resolve_right hleft⟩

theorem listing_eq_ok_iff_emitted {policy : Policy}
    (hunique : ∀ x ∈ document.required, document.statements.countP (·.introduces x) ≤ 1) :
    (∃ code, document.listing policy = .ok code) ↔
      ∀ p ∈ document.placed, p.statement.phase = .initialization →
        p ∈ (document.run policy).emitted := by
  have hnone := passes_failure_eq_none policy hunique
  rw [listing,Run.exists_listing_eq_ok_iff,run,State.run_failure_eq_none_iff,and_iff_right hnone,
    List.eq_nil_iff_forall_not_mem]
  constructor
  · intro hleft p hp _
    exact (mem_emitted_iff hnone hp).mpr (hleft p)
  · intro hall p hp
    have hplaced := (emitted_leftover_perm hnone).subset (List.mem_append_right _ hp)
    have hphase : p.statement.phase = .initialization := by
      obtain ⟨later,_,_,hstate,_,_⟩ := passes_after (coherent_start document policy)
        (passes_after_failure_eq_none policy .start hunique)
      rw [← start_eq_after] at hstate
      exact phase_of_mem_leftover (hstate ▸ hp)
    exact (mem_emitted_iff hnone hplaced).mp (hall p hplaced hphase) hp

/-- After the first pass a run that discards only drains. -/
theorem run_events_discard
    (hunique : ∀ x ∈ document.required, document.statements.countP (·.introduces x) ≤ 1) :
    ∃ rest, (document.run .discard).events =
        ((State.start document).pass .discard document.required).events ++ rest ∧
      ∀ p ∈ rest.flatMap Event.emitted, p.statement.phase ≠ .initialization := by
  have hnone := passes_failure_eq_none .discard hunique
  obtain ⟨ended,hended,hpasses,_⟩ := State.passes_discard_eq 1
    (pass_failure_eq_none .discard hunique)
  let state := ((State.start document).passes .discard 1 document.required).state
  let drains := State.drainAll Phase.trailing state
  refine ⟨ended ++ drains.1 ++ drains.2.close.events,?_,fun p hp => ?_⟩
  · simp [run,State.run,hnone,hpasses,drains,state]
  · rw [List.flatMap_append,List.flatMap_append,hended,State.emitted_close,List.nil_append,
      List.append_nil,State.drainAll_emitted Phase.nodup_trailing] at hp
    exact (State.mem_trailing.mp hp).2

/-- Behind a pass that discards no initialization is emitted any more. -/
theorem phase_of_emitted_after_pass {before after : List Event} {number resolved blocked : Nat}
    (hunique : ∀ x ∈ document.required, document.statements.countP (·.introduces x) ≤ 1)
    (hevents : (document.run .discard).events =
      before ++ .passEnded number resolved blocked :: after)
    (hp : p ∈ after.flatMap Event.emitted) : p.statement.phase ≠ .initialization := by
  obtain ⟨rest,hrun,hrest⟩ := run_events_discard hunique
  have hsub : after ⊆ rest := by
    rw [hrun] at hevents
    rcases List.append_eq_append_iff.mp hevents with ⟨middle,_,hmiddle⟩ | ⟨middle,hmiddle,htail⟩
    · exact fun event hevent => hmiddle ▸ List.mem_append_right _ (List.mem_cons_of_mem _ hevent)
    · cases middle with
      | nil =>
        rw [List.nil_append] at htail
        exact fun event hevent => htail ▸ List.mem_cons_of_mem _ hevent
      | cons event middle =>
        -- The first pass would hold the event that ends it.
        obtain ⟨rfl,_⟩ := List.cons.inj htail
        have hmem : .passEnded number resolved blocked ∈
            ((State.start document).pass .discard document.required).events :=
          hmiddle ▸ List.mem_append_right _ List.mem_cons_self
        exact absurd hmem (State.not_mem_pass number resolved blocked)
  obtain ⟨event,hevent,hp⟩ := List.mem_flatMap.mp hp
  exact hrest p (List.mem_flatMap.mpr ⟨event,hsub hevent,hp⟩)

open Classical in
/-- What cannot be scheduled at all is left over by a scan, too. -/
theorem Scanned.subperm_leftover (h : document.Scanned document.required history)
    (hordered : document.Ordered history.declared) :
    (document.placed.filter fun p => p.statement.phase = .initialization ∧
      ¬document.Schedulable p.statement).Subperm (document.after history).leftover := by
  refine List.subperm_of_subset (document.nodup_placed.filter _) fun p hp => ?_
  obtain ⟨hp,hcondition⟩ := List.mem_filter.mp hp
  obtain ⟨hphase,hstuck⟩ := of_decide_eq_true hcondition
  rw [leftover_after,List.mem_append,List.mem_flatMap,List.mem_filter]
  cases hhandled : history.handles p.statement with
  | false => exact Or.inr ⟨hp,by simp [hphase]⟩
  | true =>
    obtain ⟨x,hx | hx,hpx⟩ := (History.handles_of_initialization hphase).mp hhandled
    · have hdeps := hordered.dependencies hx (mem_statements hp) hpx
      exact absurd ⟨⟨x,h.declared_subset hx,hpx⟩,fun y hy => hordered.derivable y (hdeps y hy)⟩ hstuck
    · exact Or.inl ⟨x,hx,mem_declarationsOf.mpr ⟨hp,hpx⟩⟩

theorem leftover_passes_discard
    (hunique : ∀ x ∈ document.required, document.statements.countP (·.introduces x) ≤ 1) :
    ((State.start document).passes .discard 1 document.required).state.leftover.map
        (fun p => Leftover.ofStatement p.statement) =
      (document.passedOver (document.run .discard).declared).map .ofStatement := by
  obtain ⟨history,hscanned,_,hstate,hdeclared⟩ := exists_scanned hunique
  rw [hdeclared,passedOver_congr fun x => List.mem_reverse,← hscanned.map_leftover,hstate,
    List.map_map]
  rfl

theorem listing_discard_unresolved
    (hunique : ∀ x ∈ document.required, document.statements.countP (·.introduces x) ≤ 1)
    (hrefused : ¬∃ code, document.listing .discard = .ok code) :
    document.listing .discard = .error (.unresolved
      ((document.passedOver (document.run .discard).declared).map .ofStatement)) := by
  have hnone := passes_failure_eq_none .discard hunique
  rw [listing,Run.exists_listing_eq_ok_iff,run,State.run_failure_eq_none_iff,
    and_iff_right hnone] at hrefused
  rw [← leftover_passes_discard hunique,listing,Run.listing_eq_error_iff]
  exact State.run_failure_eq_unresolved_iff.mpr ⟨hnone,hrefused,rfl⟩

/-- Under retention no more is left over than in the scan. -/
theorem subperm_of_retain {kept : List Leftover}
    (hunique : ∀ x ∈ document.required, document.statements.countP (·.introduces x) ≤ 1)
    (hkept : document.listing .retain = .error (.unresolved kept)) :
    kept.Subperm ((document.passedOver (document.run .discard).declared).map .ofStatement) := by
  obtain ⟨history,hscanned,hordered,_,hdeclared⟩ := exists_scanned hunique
  rw [listing,Run.listing_eq_error_iff] at hkept
  obtain ⟨_,_,rfl⟩ := State.run_failure_eq_unresolved_iff.mp hkept
  obtain ⟨stuck,hperm,hsublist⟩ := hscanned.subperm_leftover hordered
  rw [leftover_passes_retain hunique,hdeclared,passedOver_congr fun x => List.mem_reverse,
    ← hscanned.map_leftover,List.map_map,← document.map_statement_placed,List.filter_map,
    List.map_map]
  exact ⟨stuck.map _,hperm.map _,hsublist.map _⟩

theorem mem_declared_run {policy : Policy} : x ∈ (document.run policy).declared ↔
    ∃ p ∈ (document.run policy).emitted, p.statement.introduces x = true := by
  rw [Run.declared,List.mem_filterMap]
  exact exists_congr fun p => and_congr_right fun _ => Statement.introduced?_eq_some_iff

/-- The scan emits a declaration just when it comes to it after all that this depends on. -/
theorem mem_emitted_discard_iff
    (hunique : ∀ x ∈ document.required, document.statements.countP (·.introduces x) ≤ 1)
    (hx : x ∈ document.required) (hp : p ∈ document.placed)
    (hpx : p.statement.introduces x = true) : p ∈ (document.run .discard).emitted ↔
      ∀ y ∈ p.statement.dependencies, y ∈ document.supplied ∨
        y ∈ (document.run .discard).declared ∧
          document.required.idxOf y < document.required.idxOf x := by
  have hsingle := declarationsOf_eq_singleton (hunique x hx) hp hpx
  have hemitted : p ∈ (document.run .discard).emitted ↔ x ∈ (document.run .discard).declared := by
    rw [mem_declared_run]
    refine ⟨fun hp => ⟨p,hp,hpx⟩,fun ⟨q,hq,hqx⟩ => ?_⟩
    have hperm := emitted_leftover_perm (passes_failure_eq_none .discard hunique)
    have hplaced := hperm.subset (List.mem_append_left _ hq)
    exact eq_of_declarationsOf hsingle hplaced hqx ▸ hq
  obtain ⟨history,hscanned,_,_,hdeclared⟩ := exists_scanned hunique
  rw [hemitted,hdeclared,List.mem_reverse,hscanned.declared_iff x hx p hsingle]
  simp only [List.mem_reverse]

/-- The discarding policy makes one scan of the references. It emits the declaration of an identifier
just when all that this depends on is supplied or emitted before, for an identifier that comes first. A
document is refused if this leaves an initialization over, and then all these are reported: those that
were dropped, in the order of the references, and those that declare nothing required. What retention
leaves over is among them. -/
theorem scan_of_discard (document : Document)
    (hunique : ∀ x ∈ document.required, document.statements.countP (·.introduces x) ≤ 1) :
    (∀ before number resolved blocked after,
        (document.run .discard).events = before ++ .passEnded number resolved blocked :: after →
        ∀ p ∈ after.flatMap Event.emitted, p.statement.phase ≠ .initialization) ∧
      (∀ x ∈ document.required, ∀ p ∈ document.placed, p.statement.introduces x = true →
        (p ∈ (document.run .discard).emitted ↔
          ∀ y ∈ p.statement.dependencies, y ∈ document.supplied ∨
            (∃ q ∈ (document.run .discard).emitted, q.statement.introduces y = true) ∧
              document.required.idxOf y < document.required.idxOf x)) ∧
      ((∃ code, document.listing .discard = .ok code) ↔
        ∀ p ∈ document.placed, p.statement.phase = .initialization →
          p ∈ (document.run .discard).emitted) ∧
      ((¬∃ code, document.listing .discard = .ok code) →
        document.listing .discard = .error (.unresolved
          ((document.passedOver (document.run .discard).declared).map .ofStatement))) ∧
      ∀ kept, document.listing .retain = .error (.unresolved kept) →
        ∃ remaining, document.listing .discard = .error (.unresolved remaining) ∧
          kept.Subperm remaining := by
  refine ⟨fun _ _ _ _ _ hevents p hp => phase_of_emitted_after_pass hunique hevents hp,?_,
    listing_eq_ok_iff_emitted hunique,listing_discard_unresolved hunique,?_⟩
  · intro x hx p hp hpx
    rw [mem_emitted_discard_iff hunique hx hp hpx]
    simp only [mem_declared_run]
  · intro kept hkept
    have hsubperm := subperm_of_retain hunique hkept
    refine ⟨_,listing_discard_unresolved hunique fun ⟨code,hcode⟩ => ?_,hsubperm⟩
    have hquiet : ¬(document.run .retain).Retains := by
      intro hmet
      obtain ⟨failure,hfailure⟩ := listing_discard_of_retains hmet
      cases hcode.symm.trans hfailure
    cases hkept.symm.trans ((listing_of_quiet hquiet).symm.trans hcode)

/-- A document in which a drop takes another one with it, and with a statement that declares nothing. -/
def cascade : Document where
  statements := [
    .constructing ⟨"frame"⟩ "Frame" [⟨none,.reference ⟨"panel"⟩⟩],
    .plain .initialization (.verbatim "setUp()" []),
    .constructing ⟨"panel"⟩ "Panel" [⟨none,.reference ⟨"label"⟩⟩],
    .constructing ⟨"label"⟩ "Label" [],
    .plain .configuration (.assign ⟨"label"⟩ "size" (.literal "8"))]
  references := [.required ⟨"panel"⟩,.required ⟨"label"⟩,.required ⟨"frame"⟩,.required ⟨"panel"⟩]
  registry := .empty

/-- The panel is dropped before its label is declared, and the frame for want of the panel. Retention
leaves nothing over but the statement that declares nothing. -/
theorem scan_cascade :
    (∀ x ∈ cascade.required, cascade.statements.countP (·.introduces x) ≤ 1) ∧
      (cascade.run .discard).declared = [⟨"label"⟩] ∧
      cascade.listing .discard = .error (.unresolved [
        ⟨.initialization,some ⟨"panel"⟩,[⟨"label"⟩]⟩,⟨.initialization,some ⟨"frame"⟩,[⟨"panel"⟩]⟩,
        ⟨.initialization,none,[]⟩]) ∧
      cascade.listing .retain = .error (.unresolved [⟨.initialization,none,[]⟩]) ∧
      ∃ remaining, cascade.listing .discard = .error (.unresolved remaining) ∧
        remaining = (cascade.passedOver [⟨"label"⟩]).map .ofStatement ∧
        [⟨.initialization,none,[]⟩].Subperm remaining := by
  have hunique : ∀ x ∈ cascade.required, cascade.statements.countP (·.introduces x) ≤ 1 := by
    decide
  have hdeclared : (cascade.run .discard).declared = [⟨"label"⟩] := by decide +kernel
  have hretain : cascade.listing .retain = .error (.unresolved [⟨.initialization,none,[]⟩]) := by
    decide +kernel
  obtain ⟨_,_,_,hrefused,hamong⟩ := scan_of_discard cascade hunique
  obtain ⟨remaining,hremaining,hsubperm⟩ := hamong _ hretain
  have hnone : ¬∃ code, cascade.listing .discard = .ok code := by
    rintro ⟨code,hcode⟩
    cases hcode.symm.trans hremaining
  have hpassed := hremaining.symm.trans (hrefused hnone)
  rw [hdeclared] at hpassed
  cases hpassed
  exact ⟨hunique,hdeclared,by decide +kernel,hretain,_,hremaining,rfl,hsubperm⟩

end Document

end ObjectGraph
