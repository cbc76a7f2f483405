import ObjectGraph.Proofs.Schedule.Blocks
import ObjectGraph.Proofs.Schedule.Lockstep

/-! # Supply and demand

Only the initializations of a document are held to their dependencies. Whether a document has a
listing, and how it fails otherwise, is decided by its core: its initializations, its supplied
identifiers and the required ones that it declares. What the rest of it uses or requires may be
provided by nobody.
-/
namespace ObjectGraph

namespace State
variable {policy : Policy} {state s t : State} {x : Identifier} {p : Placed}

/-- States that agree on their initializations, on what is dropped and on what is declared. Positions
may differ, and so may what is pending in other phases. -/
structure Alike (s t : State) : Prop where
  pending : (s.inPhase .initialization).map (·.statement) =
    (t.inPhase .initialization).map (·.statement)
  discarded : s.discarded.map (·.statement) = t.discarded.map (·.statement)
  declared : ∀ x, x ∈ s.declared ↔ x ∈ t.declared

theorem map_declarationsOf (state : State) (x : Identifier) :
    (state.declarationsOf x).map (·.statement) =
      ((state.inPhase .initialization).map (·.statement)).filter (·.introduces x) := by
  rw [List.filter_map,inPhase,List.filter_filter,declarationsOf]
  apply congrArg
  apply List.filter_congr
  intro p _
  cases hp : p.statement.introduces x with
  | false => simp [hp]
  | true => simp [hp,(Statement.introduces_eq_true_iff.mp hp).1]

theorem inPhase_configure (x : Identifier) (state : State) :
    (state.configure x).2.inPhase .initialization = state.inPhase .initialization := by
  simp only [configure,take,inPhase,List.filter_filter]
  apply List.filter_congr
  intro p _
  cases p.statement.phase <;> simp

theorem Alike.map_declarationsOf (h : s.Alike t) (x : Identifier) :
    (s.declarationsOf x).map (·.statement) = (t.declarationsOf x).map (·.statement) := by
  rw [s.map_declarationsOf,t.map_declarationsOf,h.pending]

theorem Alike.declarationsOf_eq_singleton (h : s.Alike t) (hp : s.declarationsOf x = [p]) :
    ∃ q, t.declarationsOf x = [q] ∧ q.statement = p.statement := by
  have hmap := h.map_declarationsOf x
  rw [hp,List.map_singleton] at hmap
  exact List.map_eq_singleton_iff.mp hmap.symm

theorem Alike.permits (h : s.Alike t) (statement : Statement) :
    s.permits statement = t.permits statement := by
  have hdeclared : s.isDeclared = t.isDeclared :=
    funext fun y => decide_eq_decide.mpr (h.declared y)
  rw [State.permits,State.permits,hdeclared]

theorem Alike.remove {ds es : List Placed} {xs ys : List Identifier} (h : s.Alike t)
    (hdiscarded : ds.map (·.statement) = es.map (·.statement)) (hdeclared : ∀ y, y ∈ xs ↔ y ∈ ys) :
    Alike ⟨s.pendingBut x,ds,xs⟩ ⟨t.pendingBut x,es,ys⟩ := by
  have hmap : ∀ (u : State) (ps : List Placed) (zs : List Identifier),
      ((State.mk (u.pendingBut x) ps zs).inPhase .initialization).map (·.statement) =
        ((u.inPhase .initialization).map (·.statement)).filter (!·.introduces x) := by
    intro u ps zs
    rw [List.filter_map]
    simp only [inPhase,pendingBut,List.filter_filter]
    apply congrArg
    apply List.filter_congr
    intro p _
    exact Bool.and_comm _ _
  refine ⟨?_,hdiscarded,hdeclared⟩
  rw [hmap,hmap,h.pending]

theorem Alike.configure {y : Identifier} (h : s.Alike t) :
    (s.configure y).2.Alike (t.configure y).2 := by
  refine ⟨?_,h.discarded,h.declared⟩
  rw [inPhase_configure,inPhase_configure,h.pending]

theorem Alike.find_eq_ready (h : s.Alike t) (hfind : s.find x = .ready p) :
    ∃ q, t.find x = .ready q ∧ (s.emit policy x).2.Alike (t.emit policy x).2 := by
  obtain ⟨hp,hpermits⟩ := find_eq_ready_iff.mp hfind
  obtain ⟨q,hq,hstatement⟩ := h.declarationsOf_eq_singleton hp
  rw [h.permits,← hstatement] at hpermits
  have hother := find_eq_ready_iff.mpr ⟨hq,hpermits⟩
  refine ⟨q,hother,Alike.configure ?_⟩
  simp only [declare,hfind,hother,settle]
  exact h.remove h.discarded fun y => by simp only [List.mem_cons,h.declared]

theorem Alike.find_eq_blocked (h : s.Alike t) (hfind : s.find x = .blocked p) :
    ∃ q, t.find x = .blocked q ∧ (s.declare policy x).2.Alike (t.declare policy x).2 := by
  obtain ⟨hp,hpermits⟩ := find_eq_blocked_iff.mp hfind
  obtain ⟨q,hq,hstatement⟩ := h.declarationsOf_eq_singleton hp
  rw [h.permits,← hstatement] at hpermits
  have hother := find_eq_blocked_iff.mpr ⟨hq,hpermits⟩
  refine ⟨q,hother,?_⟩
  simp only [declare,hfind,hother,settle]
  cases policy with
  | retain => exact h
  | discard =>
    refine h.remove ?_ h.declared
    rw [List.map_append,List.map_append,h.discarded,List.map_singleton,List.map_singleton,
      hstatement]

theorem alike_lockstep (policy : Policy) : Lockstep policy Alike where
  absent := by
    intro s t x h hfind
    have hmap := h.map_declarationsOf x
    rw [find_eq_absent_iff.mp hfind,List.map_nil] at hmap
    exact find_eq_absent_iff.mpr (List.map_eq_nil_iff.mp hmap.symm)
  ready := Alike.find_eq_ready
  blocked := Alike.find_eq_blocked
  duplicate := by
    intro s t x count h hfind
    have hlength := congrArg List.length (h.map_declarationsOf x)
    rw [List.length_map,List.length_map] at hlength
    rw [find_eq_duplicate_iff,hlength] at hfind
    exact find_eq_duplicate_iff.mpr hfind

theorem Alike.map_leftover (h : s.Alike t) :
    s.leftover.map (·.statement) = t.leftover.map (·.statement) := by
  simp only [leftover,List.map_append,h.pending,h.discarded]

/-- Runs from states that are alike fail alike, also when one of them requires less. -/
theorem Alike.run_failure {required : List Identifier} {keep : Identifier → Bool} (h : s.Alike t)
    (hskips : s.Skips keep required) :
    (t.run policy (required.filter keep)).failure = (s.run policy required).failure := by
  obtain ⟨hfailure,hstate,_⟩ := (alike_lockstep policy).passes hskips t 1 h
  cases hnone : (s.passes policy 1 required).failure with
  | some failure => rw [run_of_failure hnone,run_of_failure (hfailure.trans hnone)]
  | none =>
    have hleft := congrArg (List.map Leftover.ofStatement) (hstate hnone).map_leftover
    simp only [List.map_map] at hleft
    exact run_failure_congr (hfailure.trans hnone) hnone hleft.symm

end State

namespace Document
variable {document : Document} {policy : Policy} {x : Identifier} {phases : List Phase}

/-- Whether the surroundings or a statement of the document provide the object of `x`. -/
def Provides (document : Document) (x : Identifier) : Prop :=
  x ∈ document.supplied ∨ ∃ s ∈ document.statements, s.introduces x = true

/-- The statements of some phases use provided identifiers only, and so are the required ones. -/
structure Closed (document : Document) (phases : List Phase) : Prop where
  dependencies : ∀ s ∈ document.statements, s.phase ∈ phases →
    ∀ x ∈ s.dependencies, document.Provides x
  required : ∀ x ∈ document.required, document.Provides x

/-- The part of a document that its declaration passes can resolve. -/
def core (document : Document) : Document where
  statements := document.statements.filter (·.phase == .initialization)
  references := document.references.filter fun reference =>
    reference.isSupplied || document.statements.any (·.introduces reference.identifier)
  registry := document.registry

theorem supplied_core (document : Document) : document.core.supplied = document.supplied := by
  simp only [supplied,core,List.filter_filter]
  apply congrArg
  apply List.filter_congr
  intro reference _
  cases reference.isSupplied <;> simp

theorem required_core (document : Document) : document.core.required =
    document.required.filter fun x => document.statements.any (·.introduces x) := by
  simp only [required,core,List.filter_map,List.filter_filter]
  apply congrArg
  apply List.filter_congr
  intro reference _
  cases reference.isSupplied <;> simp

theorem provides_core_iff : document.core.Provides x ↔ document.Provides x := by
  rw [Provides,supplied_core,Provides]
  refine or_congr_right ⟨?_,?_⟩
  · rintro ⟨s,hs,hsx⟩
    exact ⟨s,(List.mem_filter.mp hs).1,hsx⟩
  · rintro ⟨s,hs,hsx⟩
    have hphase := (Statement.introduces_eq_true_iff.mp hsx).1
    exact ⟨s,List.mem_filter.mpr ⟨hs,beq_iff_eq.mpr hphase⟩,hsx⟩

theorem alike_start_core (document : Document) :
    (State.start document).Alike (State.start document.core) := by
  have hpending : ∀ d : Document, ((State.start d).inPhase .initialization).map (·.statement) =
      d.statements.filter (·.phase == .initialization) := by
    intro d
    rw [← d.map_statement_placed,List.filter_map]
    rfl
  refine ⟨?_,rfl,fun x => ?_⟩
  · rw [hpending,hpending,core,List.filter_filter]
    simp only [Bool.and_self]
  · simp only [State.start,supplied_core]

/-- A document is accepted or refused with the same failure as its core. -/
theorem failure_core (document : Document) (policy : Policy) :
    (document.core.run policy).failure = (document.run policy).failure := by
  have hskips : (State.start document).Skips
      (fun x => document.statements.any (·.introduces x)) document.required := by
    intro x _ hkeep
    refine List.filter_eq_nil_iff.mpr fun p hp hintroduces => ?_
    exact List.any_eq_false.mp hkeep p.statement (mem_statements hp) hintroduces
  rw [run,required_core]
  exact document.alike_start_core.run_failure hskips

/-- The passes hold initializations to their dependencies. -/
theorem closed_core_of_listing {code : List String} (h : document.listing policy = .ok code) :
    document.core.Closed Phase.all := by
  obtain ⟨declared,hordered,_,hall⟩ := listing_eq_ok_history h
  constructor
  · intro s hs _ x hx
    obtain ⟨hs,hphase⟩ := List.mem_filter.mp hs
    obtain ⟨y,hy,hsy⟩ := hall s hs (beq_iff_eq.mp hphase)
    rw [provides_core_iff]
    rcases hordered.dependencies hy hs hsy x hx with hx | hx
    · obtain ⟨p,hp,_⟩ := hordered.closed hx
      exact Or.inr ⟨p.statement,declares_of_declarationsOf hp⟩
    · exact Or.inl hx
  · intro x hx
    rw [required_core] at hx
    obtain ⟨s,hs,hsx⟩ := List.any_eq_true.mp (List.mem_filter.mp hx).2
    exact provides_core_iff.mpr (Or.inr ⟨s,hs,hsx⟩)

theorem closed_all_iff (hcore : document.core.Closed Phase.all) :
    document.Closed Phase.all ↔ document.Closed Phase.trailing := by
  constructor
  · intro h
    exact ⟨fun s hs _ => h.dependencies s hs s.phase.mem_all,h.required⟩
  · intro h
    refine ⟨fun s hs _ x hx => ?_,h.required⟩
    by_cases hphase : s.phase = .initialization
    · have hs : s ∈ document.core.statements :=
        List.mem_filter.mpr ⟨hs,beq_iff_eq.mpr hphase⟩
      exact provides_core_iff.mp (hcore.dependencies s hs s.phase.mem_all x hx)
    · exact h.dependencies s hs (Phase.mem_trailing.mpr hphase) x hx

/-- The listing of a document may use identifiers that nobody provides. It does not just when the core
is refused, or when the rest of the document uses and requires provided identifiers only. -/
theorem closed_of_listing_iff (document : Document) (policy : Policy) :
    (∀ failure, document.listing policy = .error failure ↔
        document.core.listing policy = .error failure) ∧
      ((∃ code, document.listing policy = .ok code) → document.core.Closed Phase.all) ∧
      (((∃ code, document.listing policy = .ok code) → document.Closed Phase.all) ↔
        ((∃ code, document.core.listing policy = .ok code) → document.Closed Phase.trailing)) := by
  have hfailure := document.failure_core policy
  have hcore : (∃ code, document.core.listing policy = .ok code) ↔
      ∃ code, document.listing policy = .ok code := by
    rw [listing,listing,Run.exists_listing_eq_ok_iff,Run.exists_listing_eq_ok_iff,hfailure]
  refine ⟨fun failure => ?_,fun ⟨code,h⟩ => closed_core_of_listing h,?_⟩
  · rw [listing,listing,Run.listing_eq_error_iff,Run.listing_eq_error_iff,hfailure]
  · rw [hcore]
    refine forall_congr' fun h => ?_
    obtain ⟨code,hcode⟩ := h
    exact closed_all_iff (closed_core_of_listing hcode)

/-- A document whose only statement attaches a subview. Nobody provides the two objects, of which one
is required. -/
def stray : Document where
  statements := [.plain .subviews (.attach ⟨"window"⟩ ⟨"label"⟩)]
  references := [.required ⟨"label"⟩]
  registry := .empty

theorem stray_not_closed : (∀ policy, stray.listing policy = .ok ["window.addSubview(label)"]) ∧
    ¬stray.Provides ⟨"window"⟩ ∧ ¬stray.Provides ⟨"label"⟩ ∧ ¬stray.Closed Phase.all := by
  have hnone : ∀ x, ¬stray.Provides x := by simp [Provides,stray,supplied,Statement.introduces,
    Statement.plain,Reference.required]
  refine ⟨?_,hnone _,hnone _,fun h => hnone ⟨"label"⟩ (h.required _ (by decide))⟩
  intro policy
  cases policy <;> decide +kernel

end Document

end ObjectGraph
