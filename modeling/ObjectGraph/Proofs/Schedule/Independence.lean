import Mathlib.Data.List.Sort
import ObjectGraph.Proofs.Occurrences
import ObjectGraph.Proofs.Schedule.Layout
import ObjectGraph.Proofs.Schedule.Lockstep
import ObjectGraph.Proofs.Schedule.Rejection

/-! # Independent steps

Two steps of a schedule by hand may change places if neither takes what the other one looks for, and if
neither decides whether the other one is ready. Each answers the same then in either order. The states
behind them differ at most in the order in which they list the declared identifiers, and nothing that
comes later can tell them apart.
-/
namespace ObjectGraph

namespace State
variable {policy : Policy} {worklist required : List Identifier} {state s t : State}
variable {x y : Identifier} {select other : Statement → Bool} {a b : Step}

/-! The declared identifiers as a set. -/

theorem pairwise_declaredSet (state : State) : state.declaredSet.Pairwise (· < ·) := by
  apply pairwise_lt_eraseDups
  have hsorted : (state.declared.mergeSort fun a b => !decide (b < a)).Pairwise
      fun a b => (!decide (b < a)) = true := by
    refine List.pairwise_mergeSort ?_ ?_ state.declared
    · intro a b c hab hbc
      simp only [Bool.not_eq_true',decide_eq_false_iff_not] at hab hbc ⊢
      exact fun hca => hab (Identifier.lt_of_not_lt_of_lt hbc hca)
    · intro a b
      simp only [Bool.or_eq_true,Bool.not_eq_true',decide_eq_false_iff_not]
      exact Classical.or_iff_not_imp_left.mpr fun h => Identifier.lt_asymm (not_not.mp h)
  exact hsorted.imp fun h => by simpa using h

theorem mem_declaredSet : x ∈ state.declaredSet ↔ x ∈ state.declared := by
  rw [declaredSet,List.mem_eraseDups,List.mem_mergeSort]

theorem declaredSet_eq_iff : s.declaredSet = t.declaredSet ↔
    ∀ x, x ∈ s.declared ↔ x ∈ t.declared := by
  constructor
  · intro h x
    rw [← mem_declaredSet,h,mem_declaredSet]
  · intro h
    have : Std.Irrefl fun a b : Identifier => a < b := ⟨Identifier.lt_irrefl⟩
    have : Std.Antisymm fun a b : Identifier => a < b :=
      ⟨fun _ _ hab hba => absurd hba (Identifier.lt_asymm hab)⟩
    refine (pairwise_declaredSet s).eq_of_mem_iff (pairwise_declaredSet t) fun x => ?_
    rw [mem_declaredSet,mem_declaredSet,h x]

/-- States with the same pending and dropped statements and the same set of declared identifiers. -/
structure Same (s t : State) : Prop where
  pending : t.pending = s.pending
  discarded : t.discarded = s.discarded
  declaredSet : t.declaredSet = s.declaredSet

end State

/-- Progresses of which only the states may differ, and these only as states that are the same. -/
structure Progress.Same (progress other : Progress) : Prop where
  events : other.events = progress.events
  state : progress.state.Same other.state
  blocked : other.blocked = progress.blocked
  failure : other.failure = progress.failure

namespace Progress.Same
variable {progress other : Progress}

theorem waiting (h : progress.Same other) (x : Identifier) :
    (progress.waiting x).Same (other.waiting x) :=
  ⟨h.events,h.state,congrArg (x :: ·) h.blocked,h.failure⟩

theorem after (h : progress.Same other) (events : List Event) :
    (progress.after events).Same (other.after events) :=
  ⟨congrArg (events ++ ·) h.events,h.state,h.blocked,h.failure⟩

end Progress.Same

namespace State
variable {policy : Policy} {worklist required : List Identifier} {state s t : State}
variable {x y : Identifier} {select other : Statement → Bool} {a b : Step}

theorem find_congr (hdeclarations : t.declarationsOf x = s.declarationsOf x)
    (hpermits : ∀ p ∈ s.declarationsOf x, t.permits p.statement = s.permits p.statement) :
    t.find x = s.find x := by
  unfold find
  rw [hdeclarations]
  rcases h : s.declarationsOf x with _ | ⟨p,_ | ⟨q,rest⟩⟩
  · rfl
  · simp only [hpermits p (h ▸ List.mem_singleton_self p)]
  · rfl

/-! Nothing that comes later can tell states apart that are the same. -/

namespace Same

theorem refl (s : State) : Same s s := ⟨rfl,rfl,rfl⟩

theorem permits (h : Same s t) (statement : Statement) : t.permits statement = s.permits statement := by
  rw [State.permits,State.permits]
  congr 1
  funext y
  rw [isDeclared,isDeclared,decide_eq_decide]
  exact declaredSet_eq_iff.mp h.declaredSet y

theorem find (h : Same s t) (x : Identifier) : t.find x = s.find x := by
  apply find_congr
  · rw [declarationsOf,declarationsOf,h.pending]
  · exact fun p _ => h.permits p.statement

theorem settle (h : Same s t) (policy : Policy) (x : Identifier) (found : Finding) :
    Same (s.settle policy x found) (t.settle policy x found) := by
  have hpending : t.pendingBut x = s.pendingBut x := by rw [pendingBut,pendingBut,h.pending]
  cases found with
  | absent => exact h
  | ready p =>
    refine ⟨hpending,h.discarded,declaredSet_eq_iff.mpr fun y => ?_⟩
    exact List.mem_cons.trans
      ((or_congr_right (declaredSet_eq_iff.mp h.declaredSet y)).trans List.mem_cons.symm)
  | blocked p =>
    cases policy with
    | retain => exact h
    | discard => exact ⟨hpending,congrArg (· ++ [p]) h.discarded,h.declaredSet⟩
  | duplicate count =>
    cases policy with
    | retain => exact h
    | discard => exact ⟨hpending,h.discarded,h.declaredSet⟩

theorem declare (h : Same s t) (policy : Policy) (x : Identifier) :
    (t.declare policy x).1 = (s.declare policy x).1 ∧
      Same (s.declare policy x).2 (t.declare policy x).2 := by
  rw [State.declare,State.declare,h.find x]
  exact ⟨rfl,h.settle policy x _⟩

theorem take (h : Same s t) (select : Statement → Bool) :
    (t.take select).1 = (s.take select).1 ∧ Same (s.take select).2 (t.take select).2 := by
  rw [State.take,State.take,h.pending]
  exact ⟨rfl,rfl,h.discarded,h.declaredSet⟩

/-- A step answers the same in states that are the same. -/
theorem perform (h : Same s t) (policy : Policy) (step : Step) :
    (t.perform policy step).1 = (s.perform policy step).1 ∧
      Same (s.perform policy step).2 (t.perform policy step).2 := by
  cases step with
  | declaration x =>
    obtain ⟨hfound,hsame⟩ := h.declare policy x
    exact ⟨congrArg (fun found : Finding => Answer.declaration (found.outcome x)) hfound,hsame⟩
  | configuration x =>
    obtain ⟨htaken,hsame⟩ := h.take _
    exact ⟨congrArg Answer.listing htaken,hsame⟩
  | drain phase =>
    obtain ⟨htaken,hsame⟩ := h.take _
    exact ⟨congrArg (fun taken : List Placed => Answer.listing taken.reverse) htaken,hsame⟩

theorem performAll (h : Same s t) (policy : Policy) (steps : List Step) :
    (t.performAll policy steps).1 = (s.performAll policy steps).1 ∧
      Same (s.performAll policy steps).2 (t.performAll policy steps).2 := by
  induction steps generalizing s t with
  | nil => exact ⟨rfl,h⟩
  | cons step steps ih =>
    obtain ⟨hanswer,hnext⟩ := h.perform policy step
    obtain ⟨hanswers,hsame⟩ := ih hnext
    rw [State.performAll,State.performAll,hanswer,hanswers]
    exact ⟨rfl,hsame⟩

theorem pass (h : Same s t) (policy : Policy) (worklist : List Identifier) :
    (s.pass policy worklist).Same (t.pass policy worklist) := by
  induction worklist generalizing s t with
  | nil => exact ⟨rfl,h,rfl,rfl⟩
  | cons x rest ih =>
    have hdeclare := (h.declare policy x).2
    cases hfind : s.find x with
    | absent =>
      rw [pass_of_absent hfind,pass_of_absent ((h.find x).trans hfind)]
      exact (ih h).waiting x
    | ready p =>
      obtain ⟨hemitted,hnext⟩ : (t.emit policy x).1 = (s.emit policy x).1 ∧
          Same (s.emit policy x).2 (t.emit policy x).2 := hdeclare.take _
      rw [pass_of_ready hfind,pass_of_ready ((h.find x).trans hfind),hemitted]
      exact (ih hnext).after _
    | blocked p =>
      rw [pass_of_blocked hfind,pass_of_blocked ((h.find x).trans hfind)]
      exact ((ih hdeclare).waiting x).after _
    | duplicate count =>
      rw [pass_of_duplicate hfind,pass_of_duplicate ((h.find x).trans hfind)]
      exact ⟨rfl,hdeclare,rfl,rfl⟩

theorem passes (policy : Policy) (number : Nat) (worklist : List Identifier) (s : State) :
    ∀ t, Same s t →
      (s.passes policy number worklist).Same (t.passes policy number worklist) := by
  fun_induction State.passes policy number worklist s with
  | case1 number worklist s hempty =>
    intro t h
    rw [State.passes,if_pos hempty]
    exact ⟨rfl,h,rfl,rfl⟩
  | case2 number worklist s hne done hfailed =>
    intro t h
    have hpass := h.pass policy worklist
    obtain ⟨failure,hfailure⟩ := Option.isSome_iff_exists.mp hfailed
    rw [passes_of_failed (hpass.failure.trans hfailure)]
    exact hpass
  | case3 number worklist s hne done hfailed resolved ended hlt ih =>
    intro t h
    have hpass := h.pass policy worklist
    have hnone : (t.pass policy worklist).failure = none :=
      hpass.failure.trans (by simpa using hfailed)
    rw [passes_of_progress hnone (hpass.blocked ▸ hlt),hpass.events,hpass.blocked]
    exact (ih _ hpass.state).after ended
  | case4 number worklist s hne done hfailed resolved ended hlt =>
    intro t h
    have hpass := h.pass policy worklist
    have hnone : (t.pass policy worklist).failure = none :=
      hpass.failure.trans (by simpa using hfailed)
    rw [passes_of_last (mt List.isEmpty_iff.mpr hne) hnone (hpass.blocked ▸ Nat.not_lt.mp hlt),
      hpass.events,hpass.blocked]
    exact ⟨rfl,hpass.state,hpass.blocked,hpass.failure⟩

theorem drainAll (h : Same s t) (phases : List Phase) :
    (State.drainAll phases t).1 = (State.drainAll phases s).1 ∧
      Same (State.drainAll phases s).2 (State.drainAll phases t).2 := by
  induction phases generalizing s t with
  | nil => exact ⟨rfl,h⟩
  | cons phase rest ih =>
    obtain ⟨htaken,hnext⟩ := h.take (·.phase == phase)
    obtain ⟨hevents,hsame⟩ := ih hnext
    refine ⟨?_,hsame⟩
    simp only [State.drainAll,drain,htaken]
    exact congrArg _ hevents

theorem close (h : Same s t) : t.close = s.close := by
  rw [State.close,State.close,remaining,remaining,h.pending,h.discarded]

/-- Runs from states that are the same are the same. -/
theorem run (h : Same s t) (policy : Policy) (required : List Identifier) :
    t.run policy required = s.run policy required := by
  have hpasses := passes policy 1 required s t h
  cases hfailure : (s.passes policy 1 required).failure with
  | some failure =>
    rw [run_of_failure hfailure,run_of_failure (hpasses.failure.trans hfailure),hpasses.events]
  | none =>
    obtain ⟨hevents,hsame⟩ := hpasses.state.drainAll Phase.trailing
    simp only [State.run,hfailure,hpasses.failure,hpasses.events,hevents,hsame.close]

end Same

/-! Steps that take different statements. -/

theorem filter_disjoint (select other : Statement → Bool) (list : List Placed)
    (h : ∀ statement, select statement = true → other statement = false) :
    (list.filter (!select ·.statement)).filter (other ·.statement) =
      list.filter (other ·.statement) := by
  rw [List.filter_filter]
  apply List.filter_congr
  intro p _
  cases hselect : select p.statement with
  | false => exact Bool.and_true _
  | true => simp [h p.statement hselect]

/-- What one condition selects is not affected by taking what another one does. -/
theorem take_take (h : ∀ statement, select statement = true → other statement = false)
    (state : State) : ((state.take select).2.take other).1 = (state.take other).1 :=
  filter_disjoint select other state.pending h

theorem take_comm (select other : Statement → Bool) (state : State) :
    ((state.take select).2.take other).2 = ((state.take other).2.take select).2 := by
  simp only [take,List.filter_filter,Bool.and_comm]

/-- A look for a declaration is not affected by taking statements of later phases. -/
theorem find_take (h : ∀ statement, select statement = true → statement.phase ≠ .initialization)
    (x : Identifier) (state : State) : (state.take select).2.find x = state.find x := by
  refine find_congr (filter_disjoint select (·.introduces x) _ fun statement hselect => ?_)
    fun _ _ => rfl
  simp [Statement.introduces,Phase.mayDeclare,h statement hselect]

theorem settle_take (policy : Policy) (x : Identifier) (found : Finding)
    (select : Statement → Bool) (state : State) :
    (state.take select).2.settle policy x found = ((state.settle policy x found).take select).2 := by
  have hpending : (state.take select).2.pendingBut x =
      (state.pendingBut x).filter (!select ·.statement) := by
    simp only [take,pendingBut,List.filter_filter,Bool.and_comm]
  cases found with
  | absent => rfl
  | ready p =>
    rw [settle,hpending]
    rfl
  | blocked p =>
    cases policy with
    | retain => rfl
    | discard =>
      rw [settle,hpending]
      rfl
  | duplicate count =>
    cases policy with
    | retain => rfl
    | discard =>
      rw [settle,hpending]
      rfl

theorem take_declare (h : ∀ statement, select statement = true → statement.phase ≠ .initialization)
    (policy : Policy) (x : Identifier) (state : State) :
    ((state.declare policy x).2.take select).1 = (state.take select).1 := by
  rw [take,take]
  rcases declare_pending policy x state with hpending | hpending
  · rw [hpending]
  · rw [hpending]
    refine filter_disjoint (·.introduces x) select _ fun statement hx => ?_
    have hphase := (Statement.introduces_eq_true_iff.mp hx).1
    exact Bool.eq_false_iff.mpr fun hselect => h statement hselect hphase

/-! Declarations that do not depend on each other. -/

/-- The state after the declaration of `x` has been emitted. -/
def introduce (x : Identifier) (state : State) : State :=
  ⟨state.pendingBut x,state.discarded,x :: state.declared⟩

theorem introduce_comm (x y : Identifier) (state : State) :
    Same ((state.introduce x).introduce y) ((state.introduce y).introduce x) where
  pending := by simp only [introduce,pendingBut,List.filter_filter,Bool.and_comm]
  discarded := rfl
  declaredSet := declaredSet_eq_iff.mpr fun z => by
    simp only [introduce,List.mem_cons,or_left_comm]

/-- Under retention a look for a declaration either emits it or changes nothing. -/
theorem settle_retain (x : Identifier) (found : Finding) :
    (∀ state : State, state.settle .retain x found = state) ∨
      ∀ state : State, state.settle .retain x found = state.introduce x := by
  cases found with
  | ready p => exact Or.inr fun _ => rfl
  | _ => exact Or.inl fun _ => rfl

theorem settle_retain_comm (x y : Identifier) (found others : Finding) (state : State) :
    Same ((state.settle .retain x found).settle .retain y others)
      ((state.settle .retain y others).settle .retain x found) := by
  rcases settle_retain x found with hx | hx
  · simp only [hx]
    exact .refl _
  · rcases settle_retain y others with hy | hy
    · simp only [hx,hy]
      exact .refl _
    · simp only [hx,hy]
      exact introduce_comm x y state

theorem declare_declared (policy : Policy) (y : Identifier) (state : State) :
    (state.declare policy y).2.declared = state.declared ∨
      (state.declare policy y).2.declared = y :: state.declared := by
  unfold declare settle
  cases state.find y with
  | absent => exact Or.inl rfl
  | ready p => exact Or.inr rfl
  | blocked p => cases policy <;> exact Or.inl rfl
  | duplicate count => cases policy <;> exact Or.inl rfl

/-- A look for a declaration is not affected by one for another that it does not depend on. -/
theorem find_declare (hne : x ≠ y)
    (hdeps : ∀ p ∈ state.declarationsOf x, y ∉ p.statement.dependencies) (policy : Policy) :
    (state.declare policy y).2.find x = state.find x := by
  refine find_congr (declarationsOf_declare hne policy state) fun p hp => ?_
  rw [Bool.eq_iff_iff]
  simp only [permits,isDeclared,List.all_eq_true,decide_eq_true_eq]
  refine forall₂_congr fun z hz => ?_
  rcases declare_declared policy y state with h | h
  · rw [h]
  · rw [h,List.mem_cons]
    refine or_iff_right ?_
    rintro rfl
    exact hdeps p hp hz

/-! Steps that change places. -/

/-- In a state, steps answer the same in either order, and they lead to states that are the same. -/
structure Commute (policy : Policy) (state : State) (a b : Step) : Prop where
  first : ((state.perform policy b).2.perform policy a).1 = (state.perform policy a).1
  second : ((state.perform policy a).2.perform policy b).1 = (state.perform policy b).1
  same : Same ((state.perform policy a).2.perform policy b).2
    ((state.perform policy b).2.perform policy a).2

end State

/-- A step that takes what a condition selects, from whatever state. -/
def Step.Takes (step : Step) (select : Statement → Bool) : Prop :=
  ∃ answer : List Placed → Answer, ∀ policy state, State.perform policy state step =
    (answer (state.take select).1,(state.take select).2)

theorem Step.Takes.configuration (x : Identifier) : (Step.configuration x).Takes (·.configures x) :=
  ⟨.listing,fun _ _ => rfl⟩

theorem Step.Takes.drain (phase : Phase) : (Step.drain phase).Takes (·.phase == phase) :=
  ⟨fun taken => .listing taken.reverse,fun _ _ => rfl⟩

namespace State
variable {policy : Policy} {state : State} {x y : Identifier} {select other : Statement → Bool}
variable {a b : Step}

theorem commute_takes (ha : a.Takes select) (hb : b.Takes other)
    (h : ∀ statement, select statement = true → other statement = false) :
    Commute policy state a b := by
  obtain ⟨answer,ha⟩ := ha
  obtain ⟨reply,hb⟩ := hb
  have hsymm : ∀ statement, other statement = true → select statement = false := by
    intro statement hother
    apply Bool.eq_false_iff.mpr
    intro hselect
    rw [h statement hselect] at hother
    cases hother
  refine ⟨?_,?_,?_⟩
  · simp only [ha,hb,take_take hsymm]
  · simp only [ha,hb,take_take h]
  · simp only [ha,hb,take_comm select other]
    exact .refl _

theorem perform_declaration (policy : Policy) (x : Identifier) (state : State) :
    state.perform policy (.declaration x) =
      (.declaration ((state.find x).outcome x),state.settle policy x (state.find x)) := rfl

theorem commute_declaration (hb : b.Takes select)
    (h : ∀ statement, select statement = true → statement.phase ≠ .initialization) :
    Commute policy state (.declaration x) b := by
  obtain ⟨reply,hb⟩ := hb
  refine ⟨?_,?_,?_⟩
  · simp only [hb,perform_declaration,find_take h]
  · rw [hb,hb]
    exact congrArg reply (take_declare h policy x state)
  · simp only [hb,perform_declaration,find_take h,settle_take]
    exact .refl _

theorem commute_declarations (hne : x ≠ y)
    (hx : ∀ p ∈ state.declarationsOf x, y ∉ p.statement.dependencies)
    (hy : ∀ p ∈ state.declarationsOf y, x ∉ p.statement.dependencies) :
    Commute .retain state (.declaration x) (.declaration y) := by
  have hfindx : (state.settle .retain y (state.find y)).find x = state.find x :=
    find_declare hne hx .retain
  have hfindy : (state.settle .retain x (state.find x)).find y = state.find y :=
    find_declare hne.symm hy .retain
  refine ⟨?_,?_,?_⟩
  · simp only [perform_declaration,hfindx]
  · simp only [perform_declaration,hfindy]
  · simp only [perform_declaration,hfindx,hfindy]
    exact settle_retain_comm x y _ _ state

/-- Two steps that do not get in each other's way. -/
inductive Independent (policy : Policy) (state : State) : Step → Step → Prop
  | declarationConfiguration (x y : Identifier) :
      Independent policy state (.declaration x) (.configuration y)
  | declarationDrain (x : Identifier) {phase : Phase} (hphase : phase ≠ .initialization) :
      Independent policy state (.declaration x) (.drain phase)
  | configurations {x y : Identifier} (hne : x ≠ y) :
      Independent policy state (.configuration x) (.configuration y)
  | configurationDrain (x : Identifier) {phase : Phase} (hphase : phase ≠ .configuration) :
      Independent policy state (.configuration x) (.drain phase)
  | drains {phase other : Phase} (hne : phase ≠ other) :
      Independent policy state (.drain phase) (.drain other)
  | declarations {x y : Identifier} (hretain : policy = .retain) (hne : x ≠ y)
      (hx : ∀ p ∈ state.declarationsOf x, y ∉ p.statement.dependencies)
      (hy : ∀ p ∈ state.declarationsOf y, x ∉ p.statement.dependencies) :
      Independent policy state (.declaration x) (.declaration y)

theorem Independent.commute (h : Independent policy state a b) : Commute policy state a b := by
  cases h with
  | declarationConfiguration x y =>
    refine commute_declaration (.configuration y) fun statement hy hphase => ?_
    rw [(Statement.configures_eq_true_iff.mp hy).1] at hphase
    cases hphase
  | declarationDrain x hphase =>
    refine commute_declaration (.drain _) fun statement hdrained => ?_
    exact beq_iff_eq.mp hdrained ▸ hphase
  | configurations hne =>
    refine commute_takes (.configuration _) (.configuration _) fun statement hx => ?_
    exact Bool.eq_false_iff.mpr fun hy => hne (Statement.eq_of_configures hx hy)
  | configurationDrain x hphase =>
    refine commute_takes (.configuration x) (.drain _) fun statement hx => ?_
    rw [(Statement.configures_eq_true_iff.mp hx).1]
    exact beq_eq_false_iff_ne.mpr hphase.symm
  | drains hne =>
    refine commute_takes (.drain _) (.drain _) fun statement hdrained => ?_
    rw [beq_iff_eq.mp hdrained]
    exact beq_eq_false_iff_ne.mpr hne
  | declarations hretain hne hx hy => exact hretain ▸ commute_declarations hne hx hy

/-- Independent steps may change places, whatever is done after them: the answers change places with
them, the states are the same in the end, and so is a run that follows. -/
theorem performAll_of_independent (h : Independent policy state a b) :
    Commute policy state a b ∧ ∀ steps,
      let first := state.performAll policy (a :: b :: steps)
      let second := state.performAll policy (b :: a :: steps)
      (∃ answer reply answers, first.1 = answer :: reply :: answers ∧
          second.1 = reply :: answer :: answers) ∧
        Same first.2 second.2 ∧
        ∀ required, second.2.run policy required = first.2.run policy required := by
  have hcommute := h.commute
  refine ⟨hcommute,fun steps => ?_⟩
  obtain ⟨hanswers,hsame⟩ := hcommute.same.performAll policy steps
  refine ⟨⟨_,_,_,rfl,?_⟩,hsame,hsame.run policy⟩
  simp only [performAll,hcommute.first,hcommute.second,hanswers]

end State

open Document in
/-- The label and the icon are declared in either order, and then the panel. -/
theorem State.performAll_of_independent_dressed :
    let state := ((State.start dressed).performAll .retain [.drain .subviews]).2
    let first := state.performAll .retain
      [.declaration ⟨"label"⟩,.declaration ⟨"icon"⟩,.declaration ⟨"panel"⟩]
    let second := state.performAll .retain
      [.declaration ⟨"icon"⟩,.declaration ⟨"label"⟩,.declaration ⟨"panel"⟩]
    state.Independent .retain (.declaration ⟨"label"⟩) (.declaration ⟨"icon"⟩) ∧
      first.1.map (fun answer => answer.emitted.map (·.position)) = [[3],[5],[1]] ∧
      second.1.map (fun answer => answer.emitted.map (·.position)) = [[5],[3],[1]] ∧
      first.2.declared ≠ second.2.declared ∧ first.2.Same second.2 ∧
      second.2.run .retain dressed.required = first.2.run .retain dressed.required := by
  intro state first second
  have hindependent : state.Independent .retain (.declaration ⟨"label"⟩) (.declaration ⟨"icon"⟩) :=
    .declarations rfl (by decide) (by decide) (by decide)
  obtain ⟨_,hsame,hrun⟩ := (performAll_of_independent hindependent).2 [.declaration ⟨"panel"⟩]
  exact ⟨hindependent,by decide,by decide,by decide,hsame,hrun dressed.required⟩

end ObjectGraph
