import ObjectGraph.Proofs.Lists
import ObjectGraph.Proofs.Schedule.Blocks

/-! # Producers before consumers

In a listing the declaration of an identifier stands before every statement that depends on it. In the
blocks this is the order of the declared identifiers; behind the blocks nothing is checked, but a
listing exists only if the blocks hold all initializations.
-/
namespace ObjectGraph

namespace Document
variable {document : Document} {d : Identifier} {t s : Placed}
variable {declared earlier later : List Identifier}

theorem Ordered.of_append (h : document.Ordered (later ++ earlier)) : document.Ordered earlier := by
  induction later with
  | nil => exact h
  | cons x rest ih =>
    cases h with
    | cons hrest _ _ _ _ => exact ih hrest

/-- No declaration up to that of `d` depends on `d` itself. -/
theorem Ordered.not_mem_dependencies (h : document.Ordered (d :: earlier))
    (hd : d ∉ document.supplied) {x : Identifier} (hx : x ∈ d :: earlier)
    (hs : s ∈ document.placed) (hsx : s.statement.introduces x = true) :
    d ∉ s.statement.dependencies := by
  cases h with
  | cons hrest hfresh _ hp hdeps =>
    have hearlier : ∀ y ∈ s.statement.dependencies, y ∈ earlier ∨ y ∈ document.supplied := by
      rcases List.mem_cons.mp hx with rfl | hx
      · rw [eq_of_declarationsOf hp hs hsx]
        exact hdeps
      · exact hrest.dependencies hx (mem_statements hs) hsx
    exact fun hdep => (hearlier d hdep).elim hfresh hd

theorem blocks_split (document : Document) (d : Identifier) (later earlier : List Identifier) :
    document.blocks (later ++ d :: earlier) =
      (document.blocks earlier ++ document.declarationsOf d) ++
        (document.configurationOf d ++ document.blocks later) := by
  simp [blocks,block]

theorem mem_blocks {p : Placed} : p ∈ document.blocks declared ↔ p ∈ document.placed ∧
    ∃ x ∈ declared, p.statement.introduces x = true ∨ p.statement.configures x = true := by
  simp only [blocks,block,declarationsOf,configurationOf,List.mem_flatMap,List.mem_reverse,
    List.mem_append,List.mem_filter]
  grind

/-- Behind the declaration of `d` stand all statements that depend on it. -/
theorem Ordered.consumer_mem (h : document.Ordered (later ++ d :: earlier))
    (hd : d ∉ document.supplied) (hs : s ∈ document.placed)
    (hdep : d ∈ s.statement.dependencies)
    (hall : s.statement.phase = .initialization →
      ∃ x ∈ later ++ d :: earlier, s.statement.introduces x = true) :
    s ∈ document.configurationOf d ++ document.blocks later ++
      (document.after ⟨later ++ d :: earlier,[]⟩).trailing := by
  simp only [List.mem_append]
  by_cases hphase : s.statement.phase = .initialization
  · obtain ⟨x,hx,hsx⟩ := hall hphase
    have hlater : x ∈ later := by
      rcases List.mem_append.mp hx with hx | hx
      · exact hx
      · exact absurd hdep (h.of_append.not_mem_dependencies hd hx hs hsx)
    exact Or.inl (Or.inr (mem_blocks.mpr ⟨hs,x,hlater,Or.inl hsx⟩))
  · cases hhandled : (History.mk (later ++ d :: earlier) []).handles s.statement with
    | false =>
      have hpending : s ∈ (document.after ⟨later ++ d :: earlier,[]⟩).pending :=
        List.mem_filter.mpr ⟨hs,by rw [hhandled]; rfl⟩
      exact Or.inr (State.mem_trailing.mpr ⟨hpending,hphase⟩)
    | true =>
      -- Emitted in the turn of its only dependency, which is `d`.
      obtain ⟨x,_,hsx⟩ := History.exists_configures hphase hhandled
      have hx : d = x := by
        rw [(Statement.configures_eq_true_iff.mp hsx).2] at hdep
        exact List.mem_singleton.mp hdep
      exact Or.inl (Or.inl (List.mem_filter.mpr ⟨hs,hx ▸ hsx⟩))

/-- In the listing of a document the declaration of an identifier that is not supplied stands before
every statement that depends on it. -/
theorem producer_before_consumer {policy : Policy} {code : List String}
    (h : document.listing policy = .ok code) (hd : d ∉ document.supplied)
    (ht : t ∈ document.placed) (htd : t.statement.introduces d = true) (hs : s ∈ document.placed)
    (hdep : d ∈ s.statement.dependencies) :
    ((document.run policy).emitted.map (·.position)).Nodup ∧
      ∃ i j : Nat, i < j ∧
        (document.run policy).emitted[i]? = some t ∧ code[i]? = some (document.code t.statement) ∧
        (document.run policy).emitted[j]? = some s ∧ code[j]? = some (document.code s.statement) := by
  obtain ⟨declared,hordered,hemitted,hall⟩ := listing_eq_ok_history h
  obtain ⟨hperm,hcode⟩ := emitted_perm h
  have hnodup : ((document.run policy).emitted.map (·.position)).Nodup := by
    rw [(hperm.map _).nodup_iff,document.map_position_placed]
    exact List.nodup_range
  have hdeclared : d ∈ declared := by
    obtain ⟨x,hx,htx⟩ := hall t.statement (mem_statements ht)
      (Statement.introduces_eq_true_iff.mp htd).1
    exact Statement.eq_of_introduces htx htd ▸ hx
  obtain ⟨later,earlier,rfl⟩ := List.mem_iff_append.mp hdeclared
  have hfront : t ∈ document.blocks earlier ++ document.declarationsOf d :=
    List.mem_append_right _ (mem_declarationsOf.mpr ⟨ht,htd⟩)
  have hback := hordered.consumer_mem hd hs hdep (hall s.statement (mem_statements hs))
  obtain ⟨i,j,hij,hi,hj⟩ := exists_lt_getElem? hfront hback
  rw [← List.append_assoc,← blocks_split,← hemitted] at hi hj
  refine ⟨hnodup,i,j,hij,hi,?_,hj,?_⟩
  · rw [hcode,List.getElem?_map,hi]
    rfl
  · rw [hcode,List.getElem?_map,hj]
    rfl

/-- The declaration of the label stands before that of the panel, though not in the document. -/
theorem label_before_panel :
    ∃ code t s, late.listing .retain = .ok code ∧ ⟨"label"⟩ ∉ late.supplied ∧
      t ∈ late.placed ∧ t.statement.introduces ⟨"label"⟩ = true ∧
      s ∈ late.placed ∧ ⟨"label"⟩ ∈ s.statement.dependencies ∧ s.position < t.position ∧
      ∃ i j : Nat, i < j ∧ code[i]? = some (late.code t.statement) ∧
        code[j]? = some (late.code s.statement) := by
  have hlisting : late.listing .retain = .ok ["let label = Label()","label.size = 8",
      "let panel = Panel(label)","panel.addSubview(label)","panel.adopt(label)"] := by
    decide +kernel
  have hsupplied : ⟨"label"⟩ ∉ late.supplied := by decide
  have ht : late.placed[2] ∈ late.placed := List.getElem_mem _
  have htd : late.placed[2].statement.introduces ⟨"label"⟩ = true := by decide
  have hs : late.placed[0] ∈ late.placed := List.getElem_mem _
  have hdep : ⟨"label"⟩ ∈ late.placed[0].statement.dependencies := by decide
  obtain ⟨_,i,j,hij,_,hi,_,hj⟩ := producer_before_consumer hlisting hsupplied ht htd hs hdep
  exact ⟨_,_,_,hlisting,hsupplied,ht,htd,hs,hdep,by decide,i,j,hij,hi,hj⟩

end Document

end ObjectGraph
