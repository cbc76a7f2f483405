import ObjectGraph.Proofs.Schedule.Clashes
import ObjectGraph.Proofs.Schedule.Layout

/-! # Rearranged references

References may be rearranged and repeated without any effect on what a document requires and what is
supplied to it. Under retention such a change is felt in the order of the blocks only: what can be
scheduled is a least set, and passes reach it from whatever side they come.
-/
namespace ObjectGraph.Document
variable {d e : Document} {x : Identifier} {history other : History}

/-- Documents that differ in the order and the repetition of their references only. -/
structure Rearranges (d e : Document) : Prop where
  statements : d.statements = e.statements
  registry : d.registry = e.registry
  supplied : ∀ x, x ∈ d.supplied ↔ x ∈ e.supplied
  required : ∀ x, x ∈ d.required ↔ x ∈ e.required

theorem Rearranges.refl (d : Document) : d.Rearranges d := ⟨rfl,rfl,fun _ => .rfl,fun _ => .rfl⟩

theorem Rearranges.symm (h : d.Rearranges e) : e.Rearranges d :=
  ⟨h.statements.symm,h.registry.symm,fun x => (h.supplied x).symm,fun x => (h.required x).symm⟩

theorem Rearranges.derivable (h : d.Rearranges e) (hx : d.Derivable x) : e.Derivable x := by
  induction hx with
  | supplied hx => exact .supplied ((h.supplied _).mp hx)
  | declared hx hs hsx _ ih => exact .declared ((h.required _).mp hx) (h.statements ▸ hs) hsx ih

theorem Rearranges.schedulable (h : d.Rearranges e) {s : Statement} (hs : d.Schedulable s) :
    e.Schedulable s := by
  obtain ⟨⟨x,hx,hsx⟩,hdeps⟩ := hs
  exact ⟨⟨x,(h.required x).mp hx,hsx⟩,fun y hy => h.derivable (hdeps y hy)⟩

theorem Rearranges.schedulable_eq (h : d.Rearranges e) : d.Schedulable = e.Schedulable :=
  funext fun _ => propext ⟨h.schedulable,h.symm.schedulable⟩

theorem Rearranges.unique (h : d.Rearranges e)
    (hunique : ∀ x ∈ d.required, d.statements.countP (·.introduces x) ≤ 1) :
    ∀ x ∈ e.required, e.statements.countP (·.introduces x) ≤ 1 := by
  intro x hx
  rw [← h.statements]
  exact hunique x ((h.required x).mpr hx)

/-- From whatever history runs go on, rearranged documents end alike. -/
theorem Rearranges.run_failure (h : d.Rearranges e)
    (hunique : ∀ x ∈ d.required, d.statements.countP (·.introduces x) ≤ 1)
    (hd : d.Coherent .retain history) (he : e.Coherent .retain other) :
    ((d.after history).run .retain d.required).failure =
      ((e.after other).run .retain e.required).failure := by
  have hother := h.unique hunique
  apply State.run_failure_congr (passes_after_failure_eq_none .retain history hunique)
    (passes_after_failure_eq_none .retain other hother)
  rw [leftover_passes_after hunique hd,leftover_passes_after hother he,h.statements,h.schedulable_eq]

theorem Rearranges.laidOut (h : d.Rearranges e) {declared : List Identifier} {code : List String}
    (hcode : e.LaidOut declared code) : d.LaidOut declared code := by
  obtain ⟨statements,references,registry⟩ := d
  obtain ⟨_,others,_⟩ := e
  obtain ⟨rfl,rfl,_,_⟩ := h
  exact ⟨hcode.distinct,hcode.complete,hcode.single,hcode.code_eq⟩

theorem exists_listing_eq_duplicate (policy : Policy)
    (hclash : ¬∀ x ∈ d.required, d.statements.countP (·.introduces x) ≤ 1) :
    ∃ x count, d.listing policy = .error (.duplicate x count) := by
  cases hfind : d.required.find? d.clashes with
  | some x => exact ⟨x,_,listing_eq_duplicate_iff.mpr ⟨hfind,rfl⟩⟩
  | none =>
    refine absurd (fun x hx => ?_) hclash
    simpa [clashes] using List.find?_eq_none.mp hfind x hx

/-- Under retention, documents whose references are rearranged are accepted and refused alike, with the
same statements left over, and their listings differ in the order of the blocks only. -/
theorem listing_of_rearranged (h : d.Rearranges e) :
    ((∃ code, d.listing .retain = .ok code) ↔ ∃ code, e.listing .retain = .ok code) ∧
      (∀ remaining, d.listing .retain = .error (.unresolved remaining) ↔
        e.listing .retain = .error (.unresolved remaining)) ∧
      ((∃ x count, d.listing .retain = .error (.duplicate x count)) ↔
        ∃ x count, e.listing .retain = .error (.duplicate x count)) ∧
      ∀ code other, d.listing .retain = .ok code → e.listing .retain = .ok other →
        d.LaidOut (d.run .retain).declared code ∧ d.LaidOut (e.run .retain).declared other ∧
          (d.run .retain).declared.Perm (e.run .retain).declared ∧
          d.trailingCode (d.run .retain).declared = d.trailingCode (e.run .retain).declared := by
  rw [← and_assoc,← and_assoc]
  constructor
  · by_cases hunique : ∀ x ∈ d.required, d.statements.countP (·.introduces x) ≤ 1
    · have hfailure : (d.run .retain).failure = (e.run .retain).failure := by
        rw [run,run,start_eq_after,start_eq_after]
        exact h.run_failure hunique (coherent_start d .retain) (coherent_start e .retain)
      simp only [listing,Run.exists_listing_eq_ok_iff,Run.listing_eq_error_iff,hfailure,
        implies_true,and_self]
    · obtain ⟨x,count,hd⟩ := exists_listing_eq_duplicate .retain hunique
      obtain ⟨y,others,he⟩ := exists_listing_eq_duplicate .retain (mt h.symm.unique hunique)
      simp [hd,he]
  · intro code other hcode hother
    have hd := laidOut_of_listing hcode
    have he := h.laidOut (laidOut_of_listing hother)
    exact ⟨hd,he,hd.perm he⟩

/-- The references of the dressed document in another order, one of them twice. -/
def redressed : Document :=
  { dressed with
    references := [.required ⟨"icon"⟩,.required ⟨"label"⟩,.required ⟨"icon"⟩,.required ⟨"panel"⟩,
      .supplied ⟨"window"⟩] }

/-- The icon and the label change places. -/
theorem listing_redressed : dressed.Rearranges redressed ∧
    ∃ code other, dressed.listing .retain = .ok code ∧ redressed.listing .retain = .ok other ∧
      (dressed.run .retain).declared = [⟨"label"⟩,⟨"icon"⟩,⟨"panel"⟩] ∧
      (redressed.run .retain).declared = [⟨"icon"⟩,⟨"label"⟩,⟨"panel"⟩] ∧
      dressed.LaidOut (dressed.run .retain).declared code ∧
      dressed.LaidOut (redressed.run .retain).declared other := by
  have hrearranges : dressed.Rearranges redressed := by
    refine ⟨rfl,rfl,fun x => ?_,fun x => ?_⟩
    · rfl
    · have hd : dressed.required = [⟨"panel"⟩,⟨"label"⟩,⟨"icon"⟩] := by decide
      have he : redressed.required = [⟨"icon"⟩,⟨"label"⟩,⟨"icon"⟩,⟨"panel"⟩] := by decide
      rw [hd,he]
      simp only [List.mem_cons,List.not_mem_nil,or_false]
      tauto
  obtain ⟨hok,_,_,hlaidOut⟩ := listing_of_rearranged hrearranges
  obtain ⟨code,hcode⟩ : ∃ code, dressed.listing .retain = .ok code :=
    Run.exists_listing_eq_ok_iff.mpr (by decide +kernel)
  obtain ⟨other,hother⟩ := hok.mp ⟨code,hcode⟩
  obtain ⟨hd,he,_⟩ := hlaidOut code other hcode hother
  exact ⟨hrearranges,code,other,hcode,hother,by decide +kernel,by decide +kernel,hd,he⟩

end ObjectGraph.Document
