import Mathlib.Data.List.Nodup
import ObjectGraph.Proofs.Schedule.Ending
import ObjectGraph.Schedule.Step

/-! # Conservation of statements

However a schedule is driven, each statement of the document is emitted, pending or dropped, in just
one of these ways and under its position. A step moves statements between the three, passes and drains
are made of steps, and so is a run from any state that steps have reached. Only a declaration that
fails under the discarding policy loses its statements.
-/
namespace ObjectGraph

namespace State
variable {policy : Policy} {worklist required : List Identifier} {state : State} {step : Step}

/-- Steps lead from `s` to `t` and emit `ps`. None of them fails under the discarding policy. -/
inductive Leads (policy : Policy) : State → List Placed → State → Prop
  | refl (s : State) : Leads policy s [] s
  | step {s t : State} {ps : List Placed} (step : Step)
      (hok : policy = .discard → (s.perform policy step).1.failed = false)
      (later : Leads policy (s.perform policy step).2 ps t) :
      Leads policy s ((s.perform policy step).1.emitted ++ ps) t

theorem Leads.trans {s t u : State} {ps qs : List Placed} (h : Leads policy s ps t)
    (hu : Leads policy t qs u) : Leads policy s (ps ++ qs) u := by
  induction h with
  | refl => exact hu
  | step step hok _ ih =>
    rw [List.append_assoc]
    exact .step step hok (ih hu)

theorem perform_declaration_of_absent (policy : Policy) {x : Identifier}
    (h : state.find x = .absent) :
    state.perform policy (.declaration x) = (.declaration (.ok none),state) := by
  simp [perform,declare,h,Finding.outcome,settle]

theorem perform_declaration_of_ready (policy : Policy) {x : Identifier} {p : Placed}
    (h : state.find x = .ready p) : state.perform policy (.declaration x) =
      (.declaration (.ok (some p)),(state.declare policy x).2) := by
  simp [perform,declare,h,Finding.outcome]

theorem perform_declaration_of_blocked (policy : Policy) {x : Identifier} {p : Placed}
    (h : state.find x = .blocked p) : state.perform policy (.declaration x) =
      (.declaration (.ok none),(state.declare policy x).2) := by
  simp [perform,declare,h,Finding.outcome]

theorem perform_declaration_of_duplicate (policy : Policy) {x : Identifier} {count : Nat}
    (h : state.find x = .duplicate count) : state.perform policy (.declaration x) =
      (.declaration (.error (.duplicate x count)),(state.declare policy x).2) := by
  simp [perform,declare,h,Finding.outcome]

/-- A turn is a declaration, and a configuration behind it if the declaration is emitted. -/
theorem Turns.leads {s t : State} {events : List Event} (h : Turns policy worklist s events t) :
    Leads policy s (events.flatMap Event.emitted) t := by
  induction h with
  | refl s => exact .refl s
  | @declared s t x p events hx hfind _ ih =>
    have hstep := perform_declaration_of_ready policy hfind
    have hconfigure : Leads policy (s.perform policy (.declaration x)).2
        ((s.emit policy x).1 ++ events.flatMap Event.emitted) t := by
      rw [hstep]
      exact .step (.configuration x) (fun _ => rfl) ih
    have hdeclare := Leads.step (.declaration x) (fun _ => by rw [hstep]; rfl) hconfigure
    rw [hstep] at hdeclare
    exact hdeclare
  | @notReady s t x p events hx hfind _ ih =>
    have hstep := perform_declaration_of_blocked policy hfind
    have hdeclare : Leads policy s ((s.perform policy (.declaration x)).1.emitted ++
        events.flatMap Event.emitted) t :=
      .step (.declaration x) (fun _ => by rw [hstep]; rfl) (by rw [hstep]; exact ih)
    rw [hstep] at hdeclare
    exact hdeclare
  | passEnded _ _ _ _ ih => exact ih

theorem drainAll_leads (policy : Policy) (phases : List Phase) (state : State) : Leads policy state
    ((drainAll phases state).1.flatMap Event.emitted) (drainAll phases state).2 := by
  induction phases generalizing state with
  | nil => exact .refl state
  | cons phase rest ih => exact .step (.drain phase) (fun _ => rfl) (ih (state.drain phase).2)

/-- A run whose passes do not fail is made of steps. -/
theorem run_leads (h : (state.passes policy 1 required).failure = none) :
    Leads policy state (state.run policy required).emitted
      (drainAll Phase.trailing (state.passes policy 1 required).state).2 := by
  have hturns := (passes_turns (List.Subset.refl required) h).leads
  have hdrains := drainAll_leads policy Phase.trailing
    (state.passes policy 1 required).state
  rw [drainAll_emitted Phase.nodup_trailing] at hdrains
  rw [run_emitted h]
  exact hturns.trans hdrains

theorem performAll_leads (steps : List Step) (hok : policy = .discard →
      ∀ answer ∈ (state.performAll policy steps).1, answer.failed = false) :
    Leads policy state ((state.performAll policy steps).1.flatMap Answer.emitted)
      (state.performAll policy steps).2 := by
  induction steps generalizing state with
  | nil => exact .refl state
  | cons step steps ih =>
    have hhead := fun hpolicy => hok hpolicy _ List.mem_cons_self
    have htail := fun hpolicy answer hanswer =>
      hok hpolicy answer (List.mem_cons_of_mem (state.perform policy step).1 hanswer)
    exact .step step hhead (ih htail)

theorem perform_pending_sublist (policy : Policy) (step : Step) (state : State) :
    (state.perform policy step).2.pending.Sublist state.pending := by
  cases step with
  | declaration x => exact declare_pending_sublist policy x state
  | configuration x => exact List.filter_sublist
  | drain phase => exact List.filter_sublist

theorem performAll_pending_sublist (steps : List Step) (state : State) :
    (state.performAll policy steps).2.pending.Sublist state.pending := by
  induction steps generalizing state with
  | nil => exact .refl _
  | cons step steps ih => exact (ih _).trans (perform_pending_sublist policy step state)

/-- From `s` to `t` some pending statements are taken. All of them are emitted, as `ps`, or under the
discarding policy all of them are dropped. -/
def Shifts (policy : Policy) (s : State) (ps : List Placed) (t : State) : Prop :=
  ∃ select : Placed → Bool, t.pending = s.pending.filter (!select ·) ∧
    (ps.Perm (s.pending.filter select) ∧ t.discarded = s.discarded ∨
      policy = .discard ∧ ps = [] ∧ t.discarded = s.discarded ++ s.pending.filter select)

theorem Shifts.refl (policy : Policy) (s : State) : Shifts policy s [] s := by
  refine ⟨fun _ => false,?_,Or.inl ⟨?_,rfl⟩⟩
  · exact (List.filter_eq_self.mpr fun _ _ => rfl).symm
  · simp

theorem perform_shifts (hok : policy = .discard → (state.perform policy step).1.failed = false) :
    Shifts policy state (state.perform policy step).1.emitted (state.perform policy step).2 := by
  cases step with
  | configuration x => exact ⟨_,rfl,Or.inl ⟨.refl _,rfl⟩⟩
  | drain phase => exact ⟨_,rfl,Or.inl ⟨List.reverse_perm _,rfl⟩⟩
  | declaration x =>
    cases h : state.find x with
    | absent =>
      rw [perform_declaration_of_absent policy h]
      exact .refl policy state
    | ready p =>
      have hp : state.pending.filter (·.statement.introduces x) = [p] :=
        (find_eq_ready_iff.mp h).1
      rw [perform_declaration_of_ready policy h]
      refine ⟨(·.statement.introduces x),?_,Or.inl ⟨?_,?_⟩⟩
      · simp [declare,h,settle,pendingBut]
      · rw [hp]
        exact .refl _
      · simp [declare,h,settle]
    | blocked p =>
      have hp : state.pending.filter (·.statement.introduces x) = [p] :=
        (find_eq_blocked_iff.mp h).1
      rw [perform_declaration_of_blocked policy h]
      cases policy with
      | retain =>
        rw [declare_of_blocked_retain h]
        exact .refl .retain state
      | discard =>
        refine ⟨(·.statement.introduces x),?_,Or.inr ⟨rfl,rfl,?_⟩⟩
        · simp [declare,h,settle,pendingBut]
        · simp [declare,h,settle,hp]
    | duplicate count =>
      -- Without `hok` the declarations would leave the pending ones unrecorded under `discard`.
      rw [perform_declaration_of_duplicate policy h] at hok ⊢
      cases policy with
      | retain =>
        have hstate : (state.declare .retain x).2 = state := by simp [declare,h,settle]
        rw [hstate]
        exact .refl .retain state
      | discard => cases hok rfl

/-- A step loses no statement and makes up none. -/
theorem Shifts.perm {s t : State} {ps : List Placed} (h : Shifts policy s ps t) :
    (ps ++ t.remaining).Perm s.remaining := by
  obtain ⟨select,hpending,⟨hemitted,hdiscarded⟩ | ⟨_,hemitted,hdiscarded⟩⟩ := h
  · simp only [remaining,hpending,hdiscarded]
    refine (List.perm_append_comm_assoc _ _ _).trans (List.Perm.append_left _ ?_)
    exact (hemitted.append_right _).trans (List.filter_append_perm _ _)
  · simp only [remaining,hpending,hdiscarded,hemitted,List.nil_append,List.append_assoc]
    exact (List.filter_append_perm _ _).append_left _

theorem Leads.perm {s t : State} {ps : List Placed} (h : Leads policy s ps t) :
    (ps ++ t.remaining).Perm s.remaining := by
  induction h with
  | refl => exact .refl _
  | step step hok _ ih =>
    rw [List.append_assoc]
    exact (ih.append_left _).trans (perform_shifts hok).perm

theorem Leads.discarded_prefix {s t : State} {ps : List Placed} (h : Leads policy s ps t) :
    s.discarded <+: t.discarded := by
  induction h with
  | refl => exact List.prefix_refl _
  | @step s t ps step hok _ ih =>
    obtain ⟨_,_,⟨_,hdiscarded⟩ | ⟨_,_,hdiscarded⟩⟩ := perform_shifts hok
    · exact hdiscarded ▸ ih
    · exact (hdiscarded ▸ List.prefix_append _ _).trans ih

/-- Under retention nothing is ever dropped. -/
theorem Leads.discarded_eq {s t : State} {ps : List Placed} (h : Leads .retain s ps t) :
    t.discarded = s.discarded := by
  induction h with
  | refl => rfl
  | step step hok _ ih =>
    obtain ⟨_,_,⟨_,hdiscarded⟩ | ⟨hpolicy,_⟩⟩ := perform_shifts hok
    · exact ih.trans hdiscarded
    · cases hpolicy

/-- The statements that a step takes without emitting them. -/
def dropped (policy : Policy) (state : State) (step : Step) : List Placed :=
  let next := state.perform policy step
  state.pending.filter fun p => !(next.1.emitted ++ next.2.pending).any (·.position == p.position)

/-- The statements that steps take without emitting them, in the order of the steps. -/
def droppedAll (policy : Policy) (state : State) : List Step → List Placed
  | [] => []
  | step :: steps =>
    state.dropped policy step ++ (state.perform policy step).2.droppedAll policy steps

/-- A step records what it drops, at the end. -/
theorem perform_discarded (hnodup : (state.pending.map (·.position)).Nodup)
    (hok : policy = .discard → (state.perform policy step).1.failed = false) :
    (state.perform policy step).2.discarded = state.discarded ++ state.dropped policy step := by
  obtain ⟨select,hpending,⟨hemitted,hdiscarded⟩ | ⟨_,hemitted,hdiscarded⟩⟩ := perform_shifts hok
  · have hnothing : state.dropped policy step = [] := by
      apply List.filter_eq_nil_iff.mpr
      intro p hp
      have hmem : p ∈ (state.perform policy step).1.emitted ++
          (state.perform policy step).2.pending := by
        rw [hpending,List.mem_append,hemitted.mem_iff]
        cases hselect : select p <;> simp [hp,hselect]
      simp only [Bool.not_eq_true',Bool.not_eq_false]
      exact List.any_eq_true.mpr ⟨p,hmem,BEq.rfl⟩
    rw [hdiscarded,hnothing,List.append_nil]
  · rw [hdiscarded,dropped]
    apply congrArg
    apply List.filter_congr
    intro p hp
    simp only [hemitted,hpending,List.nil_append]
    -- The positions decide which statement is meant, so a statement is found among the kept ones
    -- just when it is not selected.
    have hkept : (state.pending.filter (!select ·)).any (·.position == p.position) = !select p := by
      rw [Bool.eq_iff_iff,List.any_eq_true]
      constructor
      · rintro ⟨q,hq,hposition⟩
        obtain ⟨hq,hselect⟩ := List.mem_filter.mp hq
        have he : q = p := List.inj_on_of_nodup_map hnodup hq hp (beq_iff_eq.mp hposition)
        exact he ▸ hselect
      · intro hselect
        exact ⟨p,List.mem_filter.mpr ⟨hp,hselect⟩,beq_self_eq_true _⟩
    rw [hkept,Bool.not_not]

theorem performAll_discarded (steps : List Step) (hnodup : (state.pending.map (·.position)).Nodup)
    (hok : policy = .discard → ∀ answer ∈ (state.performAll policy steps).1, answer.failed = false) :
    (state.performAll policy steps).2.discarded =
      state.discarded ++ state.droppedAll policy steps := by
  induction steps generalizing state with
  | nil => exact (List.append_nil _).symm
  | cons step steps ih =>
    have hhead := fun hpolicy => hok hpolicy _ List.mem_cons_self
    have htail := fun hpolicy answer hanswer =>
      hok hpolicy answer (List.mem_cons_of_mem (state.perform policy step).1 hanswer)
    have hnext := hnodup.sublist ((perform_pending_sublist policy step state).map _)
    simp only [performAll,droppedAll,ih hnext htail,perform_discarded hnodup hhead,List.append_assoc]

theorem mem_declared_perform {x : Identifier} : x ∈ (state.perform policy step).2.declared ↔
    x ∈ state.declared ∨ ∃ p, step = .declaration x ∧
      (state.perform policy step).1 = .declaration (.ok (some p)) := by
  cases step with
  | configuration y => simp [perform,configure,take]
  | drain phase => simp [perform,drain,take]
  | declaration y =>
    cases h : state.find y with
    | absent => simp [perform_declaration_of_absent policy h]
    | ready p =>
      simp only [perform_declaration_of_ready policy h,declare,h,settle,List.mem_cons]
      grind
    | blocked p =>
      rw [perform_declaration_of_blocked policy h]
      cases policy <;> simp [declare,h,settle]
    | duplicate count =>
      rw [perform_declaration_of_duplicate policy h]
      cases policy <;> simp [declare,h,settle]

/-- The identifiers that steps declare are the targets of the declarations that they emit. -/
theorem mem_declared_performAll {x : Identifier} (steps : List Step) (state : State) :
    x ∈ (state.performAll policy steps).2.declared ↔ x ∈ state.declared ∨
      ∃ p, (Step.declaration x,Answer.declaration (.ok (some p))) ∈
        steps.zip (state.performAll policy steps).1 := by
  induction steps generalizing state with
  | nil => simp [performAll]
  | cons step steps ih =>
    simp only [performAll,ih,mem_declared_perform,List.zip_cons_cons,List.mem_cons,Prod.mk.injEq]
    grind

end State

/-- The code that a step answers. -/
def Answer.code (document : Document) : Answer → List String
  | declaration (.ok p) => (p.map fun p => document.code p.statement).toList
  | declaration (.error _) => []
  | listing statements => statements.map fun p => document.code p.statement

theorem Answer.code_eq (document : Document) (answer : Answer) :
    answer.code document = answer.emitted.map fun p => document.code p.statement := by
  rcases answer with ⟨_ | _ | p⟩ | statements <;> rfl

/-- Where the statements of a document are after steps from its start. -/
structure Document.Accounts (document : Document) (policy : Policy) (steps : List Step)
    (answers : List Answer) (state : State) : Prop where
  split : (answers.flatMap Answer.emitted ++ state.discarded ++ state.pending).Perm document.placed
  positions : ((answers.flatMap Answer.emitted ++ state.discarded ++ state.pending).map
    (·.position)).Perm (List.range document.statements.length)
  rendered : answers.flatMap (Answer.code document) =
    (answers.flatMap Answer.emitted).map fun p => document.code p.statement
  inOrder : state.pending.Sublist document.placed
  inOrderOfDrop : state.discarded = (State.start document).droppedAll policy steps
  retained : policy = .retain → state.discarded = []
  declared : ∀ x, state.isDeclared x = true ↔ x ∈ document.supplied ∨
    ∃ p, (Step.declaration x,Answer.declaration (.ok (some p))) ∈ steps.zip answers

/-- What a run leaves of a document if statements were emitted before it: nothing if it succeeds, and
the reported rest if statements remain. -/
structure Document.Settles (document : Document) (before : List Placed) (state : State) (run : Run) :
    Prop where
  ok : ∀ code, run.listing document = .ok code →
    (before ++ run.emitted).Perm document.placed ∧
      code = run.emitted.map (fun p => document.code p.statement) ∧
      (before.map (fun p => document.code p.statement) ++ code).Perm
        (document.statements.map document.code)
  unresolved : ∀ remaining, run.listing document = .error (.unresolved remaining) →
    ∃ dropped kept, remaining = (dropped ++ kept).map (.ofStatement ·.statement) ∧
      (before ++ run.emitted ++ (dropped ++ kept)).Perm document.placed ∧
      state.discarded <+: dropped ∧ kept.Sublist state.pending ∧
      ∀ p ∈ kept, p.statement.phase = .initialization

namespace State

theorem performAll_accounts (document : Document) (steps : List Step)
    (hok : policy = .discard → ∀ answer ∈ ((start document).performAll policy steps).1,
      answer.failed = false) :
    document.Accounts policy steps ((start document).performAll policy steps).1
      ((start document).performAll policy steps).2 where
  split := by
    have hperm := (performAll_leads steps hok).perm
    rw [remaining,← List.append_assoc] at hperm
    exact hperm
  positions := by
    have hperm := (performAll_leads steps hok).perm.map (·.position)
    rw [remaining,← List.append_assoc] at hperm
    exact hperm.trans (.of_eq document.map_position_placed)
  rendered := by
    rw [List.map_flatMap]
    exact congrArg (List.flatMap · _) (funext (Answer.code_eq document))
  inOrder := performAll_pending_sublist steps (start document)
  inOrderOfDrop := by
    have hnodup : ((start document).pending.map (·.position)).Nodup := by
      simp only [start,Document.map_position_placed]
      exact List.nodup_range
    exact performAll_discarded steps hnodup hok
  retained := by
    rintro rfl
    exact (performAll_leads steps hok).discarded_eq
  declared := by
    intro x
    simp only [isDeclared,decide_eq_true_eq]
    exact mem_declared_performAll steps (start document)

theorem Leads.settles {document : Document} {before : List Placed}
    (h : Leads policy (start document) before state) :
    document.Settles before state (state.run policy document.required) where
  ok := by
    intro code hcode
    obtain ⟨hnone,rfl⟩ := Run.listing_eq_ok_iff.mp hcode
    obtain ⟨hpasses,hleft⟩ := run_failure_eq_none_iff.mp hnone
    have hperm := (h.trans (run_leads hpasses)).perm
    rw [drainAll_remaining,hleft,List.append_nil] at hperm
    refine ⟨hperm,rfl,?_⟩
    have hcodes := hperm.map fun p => document.code p.statement
    rw [List.map_append] at hcodes
    refine hcodes.trans (.of_eq ?_)
    rw [← document.map_statement_placed,List.map_map]
    rfl
  unresolved := by
    intro remaining herror
    obtain ⟨hpasses,_,rfl⟩ := run_failure_eq_unresolved_iff.mp (Run.listing_eq_error_iff.mp herror)
    have hperm := (h.trans (run_leads hpasses)).perm
    rw [drainAll_remaining] at hperm
    have hturns := passes_turns (List.Subset.refl document.required) hpasses
    refine ⟨_,_,rfl,hperm,hturns.leads.discarded_prefix,
      List.filter_sublist.trans hturns.pending_sublist,?_⟩
    intro p hp
    exact beq_iff_eq.mp (List.mem_filter.mp hp).2

/-- Whatever steps are taken from the start, every statement is emitted, pending or dropped, and a run
that follows emits the rest or reports it. -/
theorem performAll_conserves (document : Document) (policy : Policy) (steps : List Step)
    (hok : policy = .discard → ∀ answer ∈ ((start document).performAll policy steps).1,
      answer.failed = false) :
    document.Accounts policy steps ((start document).performAll policy steps).1
        ((start document).performAll policy steps).2 ∧
      document.Settles (((start document).performAll policy steps).1.flatMap Answer.emitted)
        ((start document).performAll policy steps).2
        (((start document).performAll policy steps).2.run policy document.required) :=
  ⟨performAll_accounts document steps hok,(performAll_leads steps hok).settles⟩

end State

/-- A document in which a declaration stands before the one that it depends on. -/
def Document.late : Document where
  statements := [
    .declaring ⟨"panel"⟩ (.verbatim "let panel = Panel(label)" [⟨"label"⟩]),
    .plain .configuration (.invoke ⟨"panel"⟩ "adopt" [⟨none,.reference ⟨"label"⟩⟩]),
    .declaring ⟨"label"⟩ (.construct "Label" []),
    .plain .configuration (.assign ⟨"label"⟩ "size" (.literal "8")),
    .plain .subviews (.attach ⟨"panel"⟩ ⟨"label"⟩)]
  references := [.required ⟨"panel"⟩,.required ⟨"label"⟩]
  registry := .empty

open Document in
/-- The early declaration is dropped, two statements are emitted, and two are still pending. -/
theorem State.performAll_conserves_late :
    let steps := [.declaration ⟨"panel"⟩,.drain .subviews,.declaration ⟨"label"⟩]
    let done := (start late).performAll .discard steps
    (Policy.discard = .discard → ∀ answer ∈ done.1, answer.failed = false) ∧
      done.2.discarded.map (·.position) = [0] ∧
      (done.1.flatMap Answer.emitted).map (·.position) = [4,2] ∧
      done.2.pending.map (·.position) = [1,3] ∧
      late.Accounts .discard steps done.1 done.2 ∧
      late.Settles (done.1.flatMap Answer.emitted) done.2
        (done.2.run .discard late.required) := by
  intro steps done
  have hok : Policy.discard = .discard → ∀ answer ∈ done.1, answer.failed = false := by decide
  obtain ⟨haccounts,hsettles⟩ := performAll_conserves late .discard steps hok
  exact ⟨hok,by decide,by decide,by decide,haccounts,hsettles⟩

/-- A listing holds every statement of its document once. -/
theorem Document.emitted_perm {document : Document} {policy : Policy} {code : List String}
    (h : document.listing policy = .ok code) : (document.run policy).emitted.Perm document.placed ∧
      code = (document.run policy).emitted.map fun p => document.code p.statement := by
  have hstart : State.Leads policy (State.start document) [] (State.start document) := .refl _
  have hsettles := hstart.settles.ok code h
  exact ⟨hsettles.1,hsettles.2.1⟩

end ObjectGraph
