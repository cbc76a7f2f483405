import ObjectGraph.Proofs.Schedule.Clashes
import ObjectGraph.Proofs.Schedule.Layout

/-! # Demands

All that a schedule reads of an initialization is its demand: what it declares, and the set of
identifiers that it depends on. Documents that require the same and make the same demands, in
whatever order, go through the same histories. Neither their code nor the statements of other phases
can be told from what they declare and leave over.
-/
namespace ObjectGraph

/-- What a statement declares, and what it depends on. -/
def Statement.demand (statement : Statement) : Option Identifier × Finset Identifier :=
  (statement.declares,statement.dependencies.toFinset)

/-- The demand of a statement that was left over, with its phase. -/
def Leftover.demand (entry : Leftover) : Phase × Option Identifier × Finset Identifier :=
  (entry.phase,entry.declares,entry.dependencies.toFinset)

theorem Progress.declared_after (events : List Event) (progress : Progress) :
    (progress.after events).declared =
      (events.flatMap Event.emitted).filterMap (·.statement.introduced?) ++
        progress.declared := by
  simp [declared]

theorem Progress.declared_ended (progress : Progress) (number resolved blocked : Nat) :
    ((progress.events ++ [Event.passEnded number resolved blocked]).flatMap
      Event.emitted).filterMap (·.statement.introduced?) = progress.declared := by
  simp [declared,Event.emitted]

namespace State
variable {policy : Policy} {worklist : List Identifier} {s t : State} {number : Nat}
variable {sim : State → State → Prop}

theorem Lockstep.pass_declared (h : Lockstep policy sim) (hsim : sim s t) :
    (t.pass policy worklist).declared = (s.pass policy worklist).declared := by
  induction worklist generalizing s t with
  | nil => rfl
  | cons x rest ih =>
    cases hfind : s.find x with
    | absent =>
      rw [pass_of_absent hfind,pass_of_absent (h.absent hsim hfind)]
      exact ih hsim
    | ready p =>
      obtain ⟨q,hq,hnext⟩ := h.ready hsim hfind
      rw [pass_of_ready hfind,pass_of_ready hq]
      exact (declared_of_ready hq _).trans
        ((congrArg (x :: ·) (ih hnext)).trans (declared_of_ready hfind _).symm)
    | blocked p =>
      obtain ⟨q,hq,hnext⟩ := h.blocked hsim hfind
      rw [pass_of_blocked hfind,pass_of_blocked hq]
      exact ih hnext
    | duplicate count =>
      rw [pass_of_duplicate hfind,pass_of_duplicate (h.duplicate hsim hfind)]
      rfl

/-- States in lockstep declare the same identifiers in the same order. -/
theorem Lockstep.passes_declared (h : Lockstep policy sim) : ∀ (t : State) (other : Nat), sim s t →
    (t.passes policy other worklist).declared = (s.passes policy number worklist).declared := by
  fun_induction State.passes policy number worklist s with
  | case1 number worklist s hempty =>
    intro t other _
    rw [State.passes,if_pos hempty]
    rfl
  | case2 number worklist s _ done hfailed =>
    intro t other hsim
    obtain ⟨failure,hfailure⟩ := Option.isSome_iff_exists.mp hfailed
    rw [passes_of_failed ((h.pass_agrees hsim worklist).failure.trans hfailure)]
    exact h.pass_declared hsim
  | case3 number worklist s _ done hfailed resolved ended hlt ih =>
    intro t other hsim
    have hagrees := h.pass_agrees hsim worklist
    have hnone : (s.pass policy worklist).failure = none := by simpa using hfailed
    have hblocked := h.pass_blocked hsim hnone
    rw [passes_of_progress (hagrees.failure.trans hnone) (hblocked ▸ hlt),hblocked,
      Progress.declared_after,Progress.declared_after,ih _ (other + 1) (hagrees.state hnone)]
    simp only [ended,Progress.declared_ended,h.pass_declared hsim]
    rfl
  | case4 number worklist s hne done hfailed resolved ended hlt =>
    intro t other hsim
    have hnone : (s.pass policy worklist).failure = none := by simpa using hfailed
    rw [passes_of_last (mt List.isEmpty_iff.mpr hne)
      ((h.pass_agrees hsim worklist).failure.trans hnone)
      (h.pass_blocked hsim hnone ▸ Nat.le_of_not_lt hlt)]
    have ht := Progress.declared_ended (t.pass policy worklist)
    have hs := Progress.declared_ended (s.pass policy worklist)
    exact (ht _ _ _).trans ((h.pass_declared hsim).trans (hs _ _ _).symm)

end State

namespace Document
variable {d e document : Document} {policy : Policy} {history : History} {x : Identifier}

/-- The demands of the initializations, in document order. -/
def demands (document : Document) : List (Option Identifier × Finset Identifier) :=
  (document.statements.filter (·.phase == .initialization)).map Statement.demand

/-- Documents with the same references whose initializations make the same demands, in any order. -/
structure Mirrors (d e : Document) : Prop where
  references : d.references = e.references
  demands : d.demands.Perm e.demands

theorem map_demand_declarationsOf (document : Document) (x : Identifier) :
    (document.declarationsOf x).map (·.statement.demand) =
      document.demands.filter (·.1 == some x) := by
  have hmap := congrArg (List.map Statement.demand) (document.map_statement_declarationsOf x)
  rw [List.map_map] at hmap
  rw [demands,List.filter_map,List.filter_filter]
  refine hmap.trans (congrArg _ (List.filter_congr fun s _ => ?_))
  exact Bool.and_comm _ _

end Document

namespace History
variable {history : History} {statement : Statement}

/-- Whether the declaration of some identifier has been emitted or dropped. -/
def settles (history : History) (declares : Option Identifier) : Bool :=
  declares.any fun x => decide (x ∈ history.declared ∨ x ∈ history.dropped)

theorem handles_eq_settles (h : statement.phase = .initialization) :
    history.handles statement = history.settles statement.declares := by
  rw [Bool.eq_iff_iff,handles_of_initialization h,settles,Option.any_eq_true]
  simp only [Statement.introduces_eq_true_iff,h,true_and,decide_eq_true_eq]
  exact exists_congr fun x => and_comm

end History

namespace Document
variable {d e document : Document} {policy : Policy} {history : History} {x : Identifier}

theorem map_demand_leftover_after (document : Document) (history : History) :
    (document.after history).leftover.map (·.statement.demand) =
      history.dropped.flatMap (fun x => document.demands.filter (·.1 == some x)) ++
        document.demands.filter (!history.settles ·.1) := by
  rw [leftover_after,List.map_append,List.map_flatMap]
  simp only [map_demand_declarationsOf]
  apply congrArg
  rw [demands,← document.map_statement_placed]
  simp only [List.filter_map,List.map_map,List.filter_filter]
  refine congrArg _ (List.filter_congr fun p _ => ?_)
  cases hphase : p.statement.phase == .initialization with
  | false => simp [hphase]
  | true =>
    simp [hphase,History.handles_eq_settles (beq_iff_eq.mp hphase),Statement.demand]

theorem phase_of_mem_leftover {p : Placed} (hp : p ∈ (document.after history).leftover) :
    p.statement.phase = .initialization := by
  rw [leftover_after,List.mem_append,List.mem_flatMap,List.mem_filter] at hp
  rcases hp with ⟨x,_,hp⟩ | ⟨_,hp⟩
  · exact (Statement.introduces_eq_true_iff.mp (mem_declarationsOf.mp hp).2).1
  · exact beq_iff_eq.mp (Bool.and_eq_true_iff.mp hp).1

namespace Mirrors

theorem symm (h : d.Mirrors e) : e.Mirrors d := ⟨h.references.symm,h.demands.symm⟩

theorem supplied (h : d.Mirrors e) : d.supplied = e.supplied := by
  rw [Document.supplied,Document.supplied,h.references]

theorem required (h : d.Mirrors e) : d.required = e.required := by
  rw [Document.required,Document.required,h.references]

/-- After one history, both documents have declarations with the same demands. -/
theorem declarationsOf (h : d.Mirrors e) (history : History) (x : Identifier) :
    (((d.after history).declarationsOf x).map (·.statement.demand)).Perm
      (((e.after history).declarationsOf x).map (·.statement.demand)) := by
  rw [declarationsOf_after,declarationsOf_after]
  split
  · exact .nil
  · rw [map_demand_declarationsOf,map_demand_declarationsOf]
    exact h.demands.filter _

theorem declarationsOf_eq_singleton {p : Placed} (h : d.Mirrors e)
    (hp : (d.after history).declarationsOf x = [p]) :
    ∃ q, (e.after history).declarationsOf x = [q] ∧ q.statement.demand = p.statement.demand := by
  have hperm := h.declarationsOf history x
  rw [hp,List.map_singleton,List.singleton_perm] at hperm
  exact List.map_eq_singleton_iff.mp hperm.symm

theorem permits {s t : Statement} (h : d.Mirrors e) (hdemand : t.demand = s.demand) :
    (e.after history).permits t = (d.after history).permits s := by
  have hdependencies : ∀ y, y ∈ t.dependencies ↔ y ∈ s.dependencies := by
    intro y
    rw [← List.mem_toFinset,← List.mem_toFinset]
    exact iff_of_eq (congrArg (y ∈ ·.2) hdemand)
  rw [Bool.eq_iff_iff,permits_after,permits_after,h.supplied]
  simp only [hdependencies]

/-- Documents that mirror each other go through the same histories. -/
theorem lockstep (h : d.Mirrors e) (policy : Policy) : State.Lockstep policy fun s t =>
    ∃ history, s = d.after history ∧ t = e.after history where
  absent := by
    rintro _ _ x ⟨history,rfl,rfl⟩ hfind
    have hperm := h.declarationsOf history x
    rw [State.find_eq_absent_iff.mp hfind,List.map_nil] at hperm
    exact State.find_eq_absent_iff.mpr (List.map_eq_nil_iff.mp hperm.symm.eq_nil)
  ready := by
    rintro _ _ x p ⟨history,rfl,rfl⟩ hfind
    obtain ⟨hp,hpermits⟩ := State.find_eq_ready_iff.mp hfind
    obtain ⟨q,hq,hdemand⟩ := h.declarationsOf_eq_singleton hp
    rw [← h.permits hdemand] at hpermits
    have hother := State.find_eq_ready_iff.mpr ⟨hq,hpermits⟩
    refine ⟨q,hother,history.declare x,?_,?_⟩
    · rw [emit_after policy hfind]
    · rw [emit_after policy hother]
  blocked := by
    rintro _ _ x p ⟨history,rfl,rfl⟩ hfind
    obtain ⟨hp,hpermits⟩ := State.find_eq_blocked_iff.mp hfind
    obtain ⟨q,hq,hdemand⟩ := h.declarationsOf_eq_singleton hp
    rw [← h.permits hdemand] at hpermits
    have hother := State.find_eq_blocked_iff.mpr ⟨hq,hpermits⟩
    refine ⟨q,hother,?_⟩
    cases policy with
    | retain =>
      exact ⟨history,State.declare_of_blocked_retain hfind,State.declare_of_blocked_retain hother⟩
    | discard => exact ⟨history.drop x,drop_after hfind,drop_after hother⟩
  duplicate := by
    rintro _ _ x count ⟨history,rfl,rfl⟩ hfind
    have hlength := (h.declarationsOf history x).length_eq
    rw [List.length_map,List.length_map] at hlength
    rw [State.find_eq_duplicate_iff,hlength] at hfind
    exact State.find_eq_duplicate_iff.mpr hfind

theorem leftover (h : d.Mirrors e) (history : History) :
    ((d.after history).leftover.map (·.statement.demand)).Perm
      ((e.after history).leftover.map (·.statement.demand)) := by
  rw [map_demand_leftover_after,map_demand_leftover_after]
  exact (List.Perm.flatMap_left _ fun x _ => h.demands.filter _).append (h.demands.filter _)

/-- Runs over both documents leave over the same demands. -/
theorem map_demand_leftover (h : d.Mirrors e) (history : History) :
    (((d.after history).leftover.map (Leftover.ofStatement ·.statement)).map Leftover.demand).Perm
      (((e.after history).leftover.map (Leftover.ofStatement ·.statement)).map
        Leftover.demand) := by
  have hmap : ∀ document : Document, ((document.after history).leftover.map
        (Leftover.ofStatement ·.statement)).map Leftover.demand =
      ((document.after history).leftover.map (·.statement.demand)).map
        (Phase.initialization,·) := by
    intro document
    rw [List.map_map,List.map_map]
    apply List.map_congr_left
    intro p hp
    have hphase := phase_of_mem_leftover hp
    simp [Leftover.ofStatement,Leftover.demand,Statement.demand,hphase]
  rw [hmap,hmap]
  exact (h.leftover history).map _

theorem passes_agrees (h : d.Mirrors e) (policy : Policy) :
    ((State.start d).passes policy 1 d.required).Agrees
      (fun s t => ∃ history, s = d.after history ∧ t = e.after history) (fun _ => true)
      ((State.start e).passes policy 1 e.required) := by
  rw [h.required]
  exact (h.lockstep policy).passes_agrees ⟨.start,start_eq_after d,start_eq_after e⟩ _ _

theorem unresolved (h : d.Mirrors e) {remaining : List Leftover}
    (hd : d.listing policy = .error (.unresolved remaining)) :
    ∃ others, e.listing policy = .error (.unresolved others) ∧
      (remaining.map Leftover.demand).Perm (others.map Leftover.demand) := by
  obtain ⟨hfailure,hstate,_⟩ := h.passes_agrees policy
  obtain ⟨hnone,hleft,rfl⟩ :=
    State.run_failure_eq_unresolved_iff.mp (Run.listing_eq_error_iff.mp hd)
  obtain ⟨history,hs,ht⟩ := hstate hnone
  have hperm := h.map_demand_leftover history
  rw [← hs,← ht] at hperm
  refine ⟨_,Run.listing_eq_error_iff.mpr (State.run_failure_eq_unresolved_iff.mpr
    ⟨hfailure.trans hnone,?_,rfl⟩),hperm⟩
  intro hnil
  rw [hnil,List.map_nil,List.map_nil,List.perm_nil,List.map_eq_nil_iff,
    List.map_eq_nil_iff] at hperm
  exact hleft hperm

end Mirrors

/-- References and demands decide a schedule: the failure, up to the order of what remains, and the
order of the declarations, also of those that are emitted before a failure. -/
theorem schedule_of_demands (h : d.Mirrors e) (policy : Policy) :
    (∀ x count, d.listing policy = .error (.duplicate x count) ↔
        e.listing policy = .error (.duplicate x count)) ∧
      ((∃ remaining, d.listing policy = .error (.unresolved remaining)) ↔
        ∃ remaining, e.listing policy = .error (.unresolved remaining)) ∧
      (∀ remaining others, d.listing policy = .error (.unresolved remaining) →
        e.listing policy = .error (.unresolved others) →
        (remaining.map Leftover.demand).Perm (others.map Leftover.demand)) ∧
      (d.run policy).declared = (e.run policy).declared := by
  refine ⟨fun x count => ?_,⟨?_,?_⟩,?_,?_⟩
  · rw [listing,listing,Run.listing_eq_error_iff,Run.listing_eq_error_iff,run,run,
      State.run_failure_eq_duplicate_iff,State.run_failure_eq_duplicate_iff,
      (h.passes_agrees policy).failure]
  · rintro ⟨remaining,hd⟩
    obtain ⟨others,he,_⟩ := h.unresolved hd
    exact ⟨others,he⟩
  · rintro ⟨others,he⟩
    obtain ⟨remaining,hd,_⟩ := h.symm.unresolved he
    exact ⟨remaining,hd⟩
  · intro remaining others hd he
    obtain ⟨found,hfound,hperm⟩ := h.unresolved hd
    cases hfound.symm.trans he
    exact hperm
  · rw [run_declared,run_declared,h.required]
    exact ((h.lockstep policy).passes_declared _ 1
      ⟨.start,start_eq_after d,start_eq_after e⟩).symm

/-- The demands of the late document in another order, with other code and other trailing phases. -/
def recast : Document where
  statements := [
    .declaring ⟨"label"⟩ (.verbatim "let label = makeLabel()" []),
    .plain .constraints (.verbatim "activate()" []),
    .declaring ⟨"panel"⟩ (.construct "Stack"
      [⟨some "top",.reference ⟨"label"⟩⟩,⟨some "bottom",.reference ⟨"label"⟩⟩])]
  references := late.references
  registry := .ofList [(⟨"panel"⟩,⟨"stack","Stack"⟩)]

/-- The panel is dropped from either document, and the label is declared. -/
theorem schedule_recast : late.Mirrors recast ∧
    (late.run .discard).declared = [⟨"label"⟩] ∧ (recast.run .discard).declared = [⟨"label"⟩] ∧
    ∃ remaining others, late.listing .discard = .error (.unresolved remaining) ∧
      recast.listing .discard = .error (.unresolved others) ∧
      (remaining.map Leftover.demand).Perm (others.map Leftover.demand) := by
  have hmirrors : late.Mirrors recast := ⟨rfl,by decide +kernel⟩
  have hdeclared : (late.run .discard).declared = [⟨"label"⟩] := by decide +kernel
  obtain ⟨_,hunresolved,hperm,hsame⟩ := schedule_of_demands hmirrors .discard
  have hlate : late.listing .discard =
      .error (.unresolved [⟨.initialization,some ⟨"panel"⟩,[⟨"label"⟩]⟩]) := by decide +kernel
  obtain ⟨others,hothers⟩ := hunresolved.mp ⟨_,hlate⟩
  exact ⟨hmirrors,hdeclared,hsame.symm.trans hdeclared,_,others,hlate,hothers,
    hperm _ others hlate hothers⟩

end Document

end ObjectGraph
