import ObjectGraph.Proofs.Schedule.History

/-! # Blocks

The turns from the start of a document go from history to history and emit one block of statements for
each identifier that they declare: its declaration, and behind it the configuration that depends on it
alone. The identifiers of a history are ordered, each behind those that its declaration depends on.
-/
namespace ObjectGraph

namespace Document
variable {document : Document} {policy : Policy} {history : History} {x : Identifier} {p : Placed}
variable {declared : List Identifier}

/-- The statements that are emitted in the turn of `x`. -/
def block (document : Document) (x : Identifier) : List Placed :=
  document.declarationsOf x ++ document.configurationOf x

/-- The statements that are emitted in the turns of identifiers, the latest of which stands first. -/
def blocks (document : Document) (declared : List Identifier) : List Placed :=
  declared.reverse.flatMap document.block

/-- Identifiers that are declared one after the other, the latest of which stands first: each of them
is required, by its only declaration, and after the identifiers that this depends on. -/
inductive Ordered (document : Document) : List Identifier → Prop
  | nil : Ordered document []
  | cons {x : Identifier} {declared : List Identifier} {p : Placed}
      (hrest : Ordered document declared) (hfresh : x ∉ declared) (hx : x ∈ document.required)
      (hp : document.declarationsOf x = [p])
      (hdeps : ∀ y ∈ p.statement.dependencies, y ∈ declared ∨ y ∈ document.supplied) :
      Ordered document (x :: declared)

theorem Ordered.required (h : document.Ordered declared) (hx : x ∈ declared) :
    x ∈ document.required := by
  induction h with
  | nil => cases hx
  | cons _ _ hreq _ _ ih =>
    rcases List.mem_cons.mp hx with rfl | hx
    · exact hreq
    · exact ih hx

/-- A declared identifier has one declaration, and this depends on declared identifiers and supplied
ones only. -/
theorem Ordered.closed (h : document.Ordered declared) (hx : x ∈ declared) :
    ∃ p, document.declarationsOf x = [p] ∧
      ∀ y ∈ p.statement.dependencies, y ∈ declared ∨ y ∈ document.supplied := by
  induction h with
  | nil => cases hx
  | @cons z rest p _ _ _ hp hdeps ih =>
    rcases List.mem_cons.mp hx with rfl | hx
    · exact ⟨p,hp,fun y hy => (hdeps y hy).imp_left (List.mem_cons_of_mem x)⟩
    · obtain ⟨q,hq,hdeps⟩ := ih hx
      exact ⟨q,hq,fun y hy => (hdeps y hy).imp_left (List.mem_cons_of_mem z)⟩

theorem Ordered.dependencies (h : document.Ordered declared) (hx : x ∈ declared) {s : Statement}
    (hs : s ∈ document.statements) (hsx : s.introduces x = true) :
    ∀ y ∈ s.dependencies, y ∈ declared ∨ y ∈ document.supplied := by
  obtain ⟨p,hp,hdeps⟩ := h.closed hx
  obtain ⟨q,hq,rfl⟩ := exists_placed hs
  rw [eq_of_declarationsOf hp hq hsx]
  exact hdeps

/-- What every history of passes over a document satisfies. -/
structure Coherent (document : Document) (policy : Policy) (history : History) : Prop where
  ordered : document.Ordered history.declared
  dropped : ∀ x ∈ history.dropped, ∃ p, document.declarationsOf x = [p]
  retained : policy = .retain → history.dropped = []

theorem coherent_start (document : Document) (policy : Policy) :
    document.Coherent policy .start := ⟨.nil,fun _ hx => absurd hx List.not_mem_nil,fun _ => rfl⟩

theorem Coherent.declare (h : document.Coherent policy history) (hx : x ∈ document.required)
    (hfind : (document.after history).find x = .ready p) :
    document.Coherent policy (history.declare x) := by
  obtain ⟨⟨hfresh,_⟩,hp,hdeps⟩ := find_after_eq_ready_iff.mp hfind
  exact ⟨.cons h.ordered hfresh hx hp hdeps,h.dropped,h.retained⟩

theorem Coherent.drop (h : document.Coherent .discard history)
    (hfind : (document.after history).find x = .blocked p) :
    document.Coherent .discard (history.drop x) := by
  refine ⟨h.ordered,?_,fun he => nomatch he⟩
  intro y hy
  rcases List.mem_append.mp hy with hy | hy
  · exact h.dropped y hy
  · exact ⟨p,List.mem_singleton.mp hy ▸ (find_after_of_blocked hfind).2⟩

theorem blocks_append (document : Document) (later earlier : List Identifier) :
    document.blocks (later ++ earlier) = document.blocks earlier ++ document.blocks later := by
  simp [blocks]

theorem block_of_ready (hfind : (document.after history).find x = .ready p) :
    document.block x = p :: document.configurationOf x := by
  obtain ⟨_,hp,_⟩ := find_after_eq_ready_iff.mp hfind
  rw [block,hp]
  rfl

end Document

open Document in
/-- Turns take a coherent history to a coherent one, and they emit the blocks of what they declare. -/
theorem State.Turns.history {document : Document} {policy : Policy} {events : List Event}
    {s t : State} (h : State.Turns policy document.required s events t) {history : History}
    (hs : s = document.after history) (hcoherent : document.Coherent policy history) :
    ∃ later new, t = document.after later ∧ document.Coherent policy later ∧
      later.declared = new ++ history.declared ∧
      events.flatMap Event.emitted = document.blocks new := by
  induction h generalizing history with
  | refl => exact ⟨history,[],hs,hcoherent,rfl,rfl⟩
  | @declared s t x p events hx hfind _ ih =>
    subst hs
    have hemit := emit_after policy hfind
    obtain ⟨later,new,ht,hlater,hdeclared,hblocks⟩ := ih (by rw [hemit]) (hcoherent.declare hx hfind)
    refine ⟨later,new ++ [x],ht,hlater,?_,?_⟩
    · rw [hdeclared,List.append_assoc]
      rfl
    · rw [blocks_append,← hblocks,hemit]
      simp [Event.emitted,blocks,block_of_ready hfind]
  | @notReady s t x p events hx hfind _ ih =>
    subst hs
    cases policy with
    | retain => exact ih (declare_of_blocked_retain hfind) hcoherent
    | discard =>
      have hlater := ih (drop_after hfind) (hcoherent.drop hfind)
      exact hlater
  | passEnded _ _ _ _ ih => exact ih hs hcoherent

namespace Document
variable {document : Document} {policy : Policy} {history : History}

/-- Passes go on from a history, and emit the blocks of what they add to it. -/
theorem passes_after {number : Nat} (hcoherent : document.Coherent policy history)
    (h : ((document.after history).passes policy number document.required).failure = none) :
    ∃ later new, document.Coherent policy later ∧
      ((document.after history).passes policy number document.required).state =
        document.after later ∧
      later.declared = new ++ history.declared ∧
      ((document.after history).passes policy number document.required).events.flatMap
        Event.emitted = document.blocks new := by
  have hturns := State.passes_turns (List.Subset.refl document.required) h
  obtain ⟨later,new,hstate,hlater,hdeclared,hblocks⟩ := hturns.history rfl hcoherent
  exact ⟨later,new,hlater,hstate,hdeclared,hblocks⟩

theorem leftover_after (document : Document) (history : History) :
    (document.after history).leftover = history.dropped.flatMap document.declarationsOf ++
      document.placed.filter fun p =>
        p.statement.phase == .initialization && !history.handles p.statement := by
  simp only [State.leftover,State.inPhase,after,List.filter_filter]

/-- A history leaves nothing over when nothing was dropped and every initialization declares one of
the declared identifiers. -/
theorem leftover_after_eq_nil_iff (hcoherent : document.Coherent policy history) :
    (document.after history).leftover = [] ↔ history.dropped = [] ∧
      ∀ s ∈ document.statements, s.phase = .initialization →
        ∃ x ∈ history.declared, s.introduces x = true := by
  have hdropped : history.dropped.flatMap document.declarationsOf = [] ↔ history.dropped = [] := by
    refine ⟨fun h => List.eq_nil_iff_forall_not_mem.mpr fun x hx => ?_,fun h => by rw [h]; rfl⟩
    obtain ⟨p,hp⟩ := hcoherent.dropped x hx
    have hnil := List.flatMap_eq_nil_iff.mp h x hx
    rw [hp] at hnil
    cases hnil
  rw [leftover_after,List.append_eq_nil_iff,hdropped]
  apply and_congr_right
  intro hnone
  rw [← document.map_statement_placed,List.forall_mem_map,List.filter_eq_nil_iff]
  refine forall_congr' fun p => imp_congr_right fun _ => ?_
  rw [Bool.and_eq_true,beq_iff_eq,not_and]
  refine imp_congr_right fun hphase => ?_
  rw [Bool.not_eq_true',Bool.not_eq_false,History.handles_of_initialization hphase,hnone]
  simp

/-- A run that goes on from a history and succeeds has declared an identifier for each
initialization in the end. It emits the blocks of those that it adds, with the trailing phases behind
them. -/
theorem run_after_of_ok (hcoherent : document.Coherent policy history)
    (h : ((document.after history).run policy document.required).failure = none) :
    ∃ new, document.Ordered (new ++ history.declared) ∧
      ((document.after history).run policy document.required).emitted =
        document.blocks new ++ (document.after ⟨new ++ history.declared,[]⟩).trailing ∧
      ∀ s ∈ document.statements, s.phase = .initialization →
        ∃ x ∈ new ++ history.declared, s.introduces x = true := by
  obtain ⟨hpasses,hleft⟩ := State.run_failure_eq_none_iff.mp h
  obtain ⟨later,new,hlater,hstate,hdeclared,hblocks⟩ := passes_after hcoherent hpasses
  rw [hstate,leftover_after_eq_nil_iff hlater,hdeclared] at hleft
  have hlaterEq : later = ⟨new ++ history.declared,[]⟩ := by rw [← hdeclared,← hleft.1]
  refine ⟨new,hdeclared ▸ hlater.ordered,?_,hleft.2⟩
  rw [State.run_emitted hpasses,hstate,hblocks,← hlaterEq]

/-- A document with a listing has declared, one after the other, an identifier for each of its
initializations, and its listing is the blocks of these with the trailing phases behind them. -/
theorem listing_eq_ok_history {code : List String} (h : document.listing policy = .ok code) :
    ∃ declared, document.Ordered declared ∧
      (document.run policy).emitted =
        document.blocks declared ++ (document.after ⟨declared,[]⟩).trailing ∧
      ∀ s ∈ document.statements, s.phase = .initialization →
        ∃ x ∈ declared, s.introduces x = true := by
  have hok := (Run.listing_eq_ok_iff.mp h).1
  rw [run,start_eq_after] at hok ⊢
  obtain ⟨declared,hall⟩ := run_after_of_ok (coherent_start document policy) hok
  rw [History.start,List.append_nil] at hall
  exact ⟨declared,hall⟩

end Document

end ObjectGraph
