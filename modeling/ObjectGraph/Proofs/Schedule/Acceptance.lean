import ObjectGraph.Proofs.Schedule.Blocks

/-! # Accepted documents

Under retention the passes compute a least set of identifiers: those that are supplied, and with them
each required one whose declaration depends on members only. A document without doubly declared
required identifiers has a listing just when each of its initializations declares such an identifier
and depends on members, and otherwise the other initializations are reported.
-/
namespace ObjectGraph.Document
variable {document : Document} {x : Identifier} {p : Placed} {declared : List Identifier}
variable {history : History}

/-- The least set of identifiers that holds the supplied ones and is closed under the declarations of
the required ones. -/
inductive Derivable (document : Document) : Identifier → Prop
  | supplied {x : Identifier} (hx : x ∈ document.supplied) : Derivable document x
  | declared {x : Identifier} {s : Statement} (hx : x ∈ document.required)
      (hs : s ∈ document.statements) (hsx : s.introduces x = true)
      (hdeps : ∀ y ∈ s.dependencies, Derivable document y) : Derivable document x

/-- A statement that declares a required identifier and depends on derivable ones only. -/
def Schedulable (document : Document) (s : Statement) : Prop :=
  (∃ x ∈ document.required, s.introduces x = true) ∧ ∀ y ∈ s.dependencies, document.Derivable y

/-- Soundness: nothing is declared that is not derivable. -/
theorem Ordered.derivable (h : document.Ordered declared) :
    ∀ y, y ∈ declared ∨ y ∈ document.supplied → document.Derivable y := by
  induction h with
  | nil => exact fun y hy => hy.elim (fun h => absurd h List.not_mem_nil) .supplied
  | @cons x rest p _ _ hreq hp hdeps ih =>
    rintro y (hy | hy)
    · rcases List.mem_cons.mp hy with rfl | hy
      · obtain ⟨hs,hintroduces⟩ := declares_of_declarationsOf hp
        exact .declared hreq hs hintroduces fun z hz => ih z (hdeps z hz)
      · exact ih y (Or.inl hy)
    · exact .supplied hy

theorem declarationsOf_eq_singleton (hunique : document.statements.countP (·.introduces x) ≤ 1)
    (hp : p ∈ document.placed) (hpx : p.statement.introduces x = true) :
    document.declarationsOf x = [p] := by
  have hmem := mem_declarationsOf.mpr ⟨hp,hpx⟩
  rw [← document.length_declarationsOf x] at hunique
  obtain ⟨q,hq⟩ := List.length_eq_one_iff.mp
    (Nat.le_antisymm hunique (List.length_pos_of_mem hmem))
  rw [hq,List.mem_singleton] at hmem
  rw [hq,hmem]

/-- Completeness: passes that no longer find any identifier ready have declared the derivable ones. -/
theorem mem_declared_of_exhausted
    (hunique : ∀ x ∈ document.required, document.statements.countP (·.introduces x) ≤ 1)
    (hexhausted : ∀ x ∈ document.required, ∀ p,
      (document.after ⟨declared,[]⟩).find x ≠ .ready p)
    {s : Statement} (hx : x ∈ document.required) (hs : s ∈ document.statements)
    (hsx : s.introduces x = true)
    (hdeps : ∀ y ∈ s.dependencies, y ∈ declared ∨ y ∈ document.supplied) : x ∈ declared := by
  obtain ⟨p,hp,rfl⟩ := exists_placed hs
  have hsingle := declarationsOf_eq_singleton (hunique x hx) hp hsx
  apply Classical.byContradiction
  intro hfresh
  exact hexhausted x hx p
    (find_after_eq_ready_iff.mpr ⟨⟨hfresh,List.not_mem_nil⟩,hsingle,hdeps⟩)

theorem Derivable.declared_or_supplied
    (hunique : ∀ x ∈ document.required, document.statements.countP (·.introduces x) ≤ 1)
    (hexhausted : ∀ x ∈ document.required, ∀ p,
      (document.after ⟨declared,[]⟩).find x ≠ .ready p)
    (h : document.Derivable x) : x ∈ declared ∨ x ∈ document.supplied := by
  induction h with
  | supplied hx => exact Or.inr hx
  | declared hx hs hsx _ ih =>
    exact Or.inl (mem_declared_of_exhausted hunique hexhausted hx hs hsx ih)

/-- At the end of the passes under retention, what is declared is what can be scheduled. -/
theorem exists_declared_iff_schedulable
    (hunique : ∀ x ∈ document.required, document.statements.countP (·.introduces x) ≤ 1)
    (hexhausted : ∀ x ∈ document.required, ∀ p,
      (document.after ⟨declared,[]⟩).find x ≠ .ready p)
    (hordered : document.Ordered declared) {s : Statement} (hs : s ∈ document.statements) :
    (∃ x ∈ declared, s.introduces x = true) ↔ document.Schedulable s := by
  constructor
  · rintro ⟨x,hx,hsx⟩
    refine ⟨⟨x,hordered.required hx,hsx⟩,fun y hy => ?_⟩
    exact hordered.derivable y (hordered.dependencies hx hs hsx y hy)
  · rintro ⟨⟨x,hx,hsx⟩,hdeps⟩
    refine ⟨x,mem_declared_of_exhausted hunique hexhausted hx hs hsx fun y hy => ?_,hsx⟩
    exact (hdeps y hy).declared_or_supplied hunique hexhausted

theorem passes_after_failure_eq_none (policy : Policy) (history : History)
    (hunique : ∀ x ∈ document.required, document.statements.countP (·.introduces x) ≤ 1) :
    ((document.after history).passes policy 1 document.required).failure = none := by
  cases h : ((document.after history).passes policy 1 document.required).failure with
  | none => rfl
  | some failure =>
    obtain ⟨x,hx,count,_,hcount,hle⟩ := State.passes_failure h
    have hlength := hunique x hx
    rw [← document.length_declarationsOf x] at hlength
    rw [declarationsOf_after] at hle
    split at hle
    · rw [List.length_nil] at hle
      omega
    · omega

theorem passes_failure_eq_none (policy : Policy)
    (hunique : ∀ x ∈ document.required, document.statements.countP (·.introduces x) ≤ 1) :
    ((State.start document).passes policy 1 document.required).failure = none :=
  document.start_eq_after ▸ passes_after_failure_eq_none policy .start hunique

open Classical in
/-- The statements that passes under retention leave over are the initializations that cannot be
scheduled, whatever history the passes start from. -/
theorem leftover_passes_after
    (hunique : ∀ x ∈ document.required, document.statements.countP (·.introduces x) ≤ 1)
    (hcoherent : document.Coherent .retain history) :
    ((document.after history).passes .retain 1 document.required).state.leftover.map
        (fun p => Leftover.ofStatement p.statement) =
      (document.statements.filter fun s =>
        s.phase = .initialization ∧ ¬document.Schedulable s).map .ofStatement := by
  have hnone := passes_after_failure_eq_none .retain history hunique
  obtain ⟨later,_,hlater,hstate,_,_⟩ := passes_after hcoherent hnone
  have hlaterEq : later = ⟨later.declared,[]⟩ := by rw [← hlater.retained rfl]
  have hexhausted : ∀ x ∈ document.required, ∀ p,
      (document.after ⟨later.declared,[]⟩).find x ≠ .ready p := by
    intro x hx p
    rw [← hlaterEq,← hstate]
    exact State.passes_exhausted hnone hx p
  rw [hstate,leftover_after,hlater.retained rfl,List.flatMap_nil,List.nil_append,
    ← document.map_statement_placed,List.filter_map,List.map_map]
  apply congrArg
  apply List.filter_congr
  intro p hp
  have hiff := exists_declared_iff_schedulable hunique hexhausted hlater.ordered
    (mem_statements hp)
  rw [Bool.eq_iff_iff,Bool.and_eq_true,beq_iff_eq,Function.comp_apply,decide_eq_true_eq]
  refine and_congr_right fun hphase => ?_
  rw [Bool.not_eq_true',← Bool.not_eq_true,History.handles_of_initialization hphase,
    hlater.retained rfl,← hiff]
  simp

open Classical in
theorem leftover_passes_retain
    (hunique : ∀ x ∈ document.required, document.statements.countP (·.introduces x) ≤ 1) :
    ((State.start document).passes .retain 1 document.required).state.leftover.map
        (fun p => Leftover.ofStatement p.statement) =
      (document.statements.filter fun s =>
        s.phase = .initialization ∧ ¬document.Schedulable s).map .ofStatement :=
  document.start_eq_after ▸ leftover_passes_after hunique (coherent_start document .retain)

open Classical in
/-- Under retention a document in which no required identifier is declared twice has a listing just
when all its initializations can be scheduled, and otherwise it is refused with the other ones. -/
theorem listing_retain (document : Document)
    (hunique : ∀ x ∈ document.required, document.statements.countP (·.introduces x) ≤ 1) :
    ((∃ code, document.listing .retain = .ok code) ↔
        ∀ s ∈ document.statements, s.phase = .initialization → document.Schedulable s) ∧
      ((¬∃ code, document.listing .retain = .ok code) →
        document.listing .retain = .error (.unresolved
          ((document.statements.filter fun s =>
            s.phase = .initialization ∧ ¬document.Schedulable s).map .ofStatement))) := by
  have hnone := passes_failure_eq_none .retain hunique
  have hleftover := leftover_passes_retain hunique
  have hok : (∃ code, document.listing .retain = .ok code) ↔
      ((State.start document).passes .retain 1 document.required).state.leftover = [] := by
    rw [listing,Run.exists_listing_eq_ok_iff,run,State.run_failure_eq_none_iff]
    exact and_iff_right hnone
  constructor
  · rw [hok,← List.map_eq_nil_iff,hleftover,List.map_eq_nil_iff,List.filter_eq_nil_iff]
    refine forall₂_congr fun s _ => ?_
    rw [decide_eq_true_eq,not_and,Classical.not_not]
  · intro hrefused
    rw [hok] at hrefused
    rw [← hleftover,listing,Run.listing_eq_error_iff]
    exact State.run_failure_eq_unresolved_iff.mpr ⟨hnone,hrefused,rfl⟩

/-- The early declaration is scheduled in the second pass. -/
theorem schedulable_late :
    (∀ x ∈ late.required, late.statements.countP (·.introduces x) ≤ 1) ∧
      late.listing .retain = .ok ["let label = Label()","label.size = 8",
        "let panel = Panel(label)","panel.addSubview(label)","panel.adopt(label)"] ∧
      ∀ s ∈ late.statements, s.phase = .initialization → late.Schedulable s := by
  have hunique : ∀ x ∈ late.required, late.statements.countP (·.introduces x) ≤ 1 := by decide
  have hlisting : late.listing .retain = .ok ["let label = Label()","label.size = 8",
      "let panel = Panel(label)","panel.addSubview(label)","panel.adopt(label)"] := by
    decide +kernel
  exact ⟨hunique,hlisting,(listing_retain late hunique).1.mp ⟨_,hlisting⟩⟩

end ObjectGraph.Document
