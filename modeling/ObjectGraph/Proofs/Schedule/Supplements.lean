import Mathlib.Data.List.Flatten
import ObjectGraph.Proofs.Schedule.Scan

/-! # Further supplies

Whatever else the surroundings supply, a document does not suffer from it. A declaration may be emitted
earlier, so that other ones are no longer blocked. Under retention the least set of identifiers grows
with the supplied ones, and under the discarding policy so does the set that the scan declares. What is
left over becomes less.
-/
namespace ObjectGraph

/-- References with supplied ones inserted somewhere among them. -/
inductive Reference.Supplements : List Reference → List Reference → Prop
  | nil : Supplements [] []
  | keep {references others : List Reference} (reference : Reference)
      (later : Supplements references others) :
      Supplements (reference :: references) (reference :: others)
  | insert {references others : List Reference} (x : Identifier)
      (later : Supplements references others) : Supplements references (.supplied x :: others)

namespace Reference.Supplements
variable {references others : List Reference}

theorem sublist (h : Supplements references others) : references.Sublist others := by
  induction h with
  | nil => exact .slnil
  | keep reference _ ih => exact ih.cons_cons reference
  | insert x _ ih => exact ih.cons _

theorem filter_required (h : Supplements references others) :
    others.filter (!·.isSupplied) = references.filter (!·.isSupplied) := by
  induction h with
  | nil => rfl
  | keep reference _ ih => simp only [List.filter_cons,ih]
  | insert x _ ih => exact ih

end Reference.Supplements

namespace Document
variable {d e document : Document} {policy : Policy} {x : Identifier} {history other : History}
variable {remaining : List Leftover}

/-- A document and the same one with further supplied references. -/
structure Supplements (d e : Document) : Prop where
  statements : e.statements = d.statements
  registry : e.registry = d.registry
  references : Reference.Supplements d.references e.references

/-! What a run leaves over, by policy. -/

open Classical in
/-- The initializations that a run leaves over if its document has no clashes. -/
noncomputable def leftOver (document : Document) : Policy → List Statement
  | .retain =>
    document.statements.filter fun s => s.phase = .initialization ∧ ¬document.Schedulable s
  | .discard => document.passedOver (document.run .discard).declared

section
variable (hunique : ∀ x ∈ document.required, document.statements.countP (·.introduces x) ≤ 1)
include hunique

theorem leftover_passes (policy : Policy) :
    ((State.start document).passes policy 1 document.required).state.leftover.map
        (fun p => Leftover.ofStatement p.statement) =
      (document.leftOver policy).map .ofStatement := by
  cases policy with
  | retain => exact leftover_passes_retain hunique
  | discard => exact leftover_passes_discard hunique

theorem exists_listing_eq_ok_iff_leftOver :
    (∃ code, document.listing policy = .ok code) ↔ document.leftOver policy = [] := by
  rw [listing,Run.exists_listing_eq_ok_iff,run,State.run_failure_eq_none_iff,
    and_iff_right (passes_failure_eq_none policy hunique),← List.map_eq_nil_iff,
    leftover_passes hunique policy,List.map_eq_nil_iff]

theorem listing_eq_unresolved_iff_leftOver :
    document.listing policy = .error (.unresolved remaining) ↔
      document.leftOver policy ≠ [] ∧ remaining = (document.leftOver policy).map .ofStatement := by
  rw [listing,Run.listing_eq_error_iff,run,State.run_failure_eq_unresolved_iff,
    and_iff_right (passes_failure_eq_none policy hunique),leftover_passes hunique policy]
  refine and_congr_left fun _ => not_congr ?_
  rw [← List.map_eq_nil_iff,leftover_passes hunique policy,List.map_eq_nil_iff]

end

theorem unique_of_listing {result : Except Failure (List String)}
    (hlisting : document.listing policy = result)
    (hresult : ¬∃ x count, result = .error (.duplicate x count)) :
    ∀ x ∈ document.required, document.statements.countP (·.introduces x) ≤ 1 := by
  apply Classical.byContradiction
  intro hclash
  obtain ⟨x,count,hduplicate⟩ := exists_listing_eq_duplicate policy hclash
  exact hresult ⟨x,count,hlisting.symm.trans hduplicate⟩

namespace Supplements

theorem required (h : d.Supplements e) : e.required = d.required := by
  rw [Document.required,Document.required,h.references.filter_required]

theorem supplied_subset (h : d.Supplements e) : d.supplied ⊆ e.supplied :=
  ((h.references.sublist.filter _).map _).subset

theorem unique (h : d.Supplements e)
    (hunique : ∀ x ∈ d.required, d.statements.countP (·.introduces x) ≤ 1) :
    ∀ x ∈ e.required, e.statements.countP (·.introduces x) ≤ 1 := by
  rwa [h.required,h.statements]

theorem placed (h : d.Supplements e) : e.placed = d.placed := by
  rw [Document.placed,Document.placed,h.statements]

theorem code_eq (h : d.Supplements e) : e.code = d.code := by
  funext statement
  have hnames : e.nameOf = d.nameOf := by
    funext y
    rw [nameOf,nameOf,h.registry]
  rw [Document.code,Document.code,hnames]

theorem derivable (h : d.Supplements e) (hx : d.Derivable x) : e.Derivable x := by
  induction hx with
  | supplied hx => exact .supplied (h.supplied_subset hx)
  | declared hx hs hsx _ ih =>
    exact .declared (h.required ▸ hx) (h.statements.symm ▸ hs) hsx ih

theorem schedulable (h : d.Supplements e) {s : Statement} (hs : d.Schedulable s) :
    e.Schedulable s := by
  obtain ⟨⟨x,hx,hsx⟩,hdeps⟩ := hs
  exact ⟨⟨x,h.required ▸ hx,hsx⟩,fun y hy => h.derivable (hdeps y hy)⟩

/-- The scan of the supplemented document declares what the one of the document does. -/
theorem scanned_subset (h : d.Supplements e) (hd : d.Scanned d.required history)
    (he : e.Scanned e.required other) (hordered : d.Ordered history.declared) :
    history.declared ⊆ other.declared := by
  intro x hx
  -- What a declaration depends on stands before it in the references.
  induction hindex : d.required.idxOf x using Nat.strongRecOn generalizing x with
  | ind index ih =>
    have hreq := hd.declared_subset hx
    obtain ⟨p,hp,_⟩ := hordered.closed hx
    have hother : e.declarationsOf x = [p] := by rw [declarationsOf,h.placed,← hp,declarationsOf]
    refine (he.declared_iff x (h.required.symm ▸ hreq) p hother).mpr fun y hy => ?_
    rcases (hd.declared_iff x hreq p hp).mp hx y hy with hy | ⟨hy,hlt⟩
    · exact Or.inl (h.supplied_subset hy)
    · exact Or.inr ⟨ih _ (hindex ▸ hlt) hy rfl,h.required.symm ▸ hlt⟩

theorem leftOver_sublist (h : d.Supplements e)
    (hunique : ∀ x ∈ d.required, d.statements.countP (·.introduces x) ≤ 1) (policy : Policy) :
    (e.leftOver policy).Sublist (d.leftOver policy) := by
  cases policy with
  | retain =>
    rw [leftOver,leftOver,h.statements]
    apply List.monotone_filter_right
    intro s hs
    simp only [decide_eq_true_eq] at hs ⊢
    exact ⟨hs.1,mt h.schedulable hs.2⟩
  | discard =>
    obtain ⟨history,hd,hordered,_,hdeclared⟩ := exists_scanned hunique
    obtain ⟨other,he,_,_,hothers⟩ := exists_scanned (h.unique hunique)
    rw [leftOver,leftOver,hdeclared,hothers,passedOver,passedOver,h.required,h.statements]
    refine List.Sublist.append (List.Sublist.flatMap ?_ _) (.refl _)
    apply List.monotone_filter_right
    intro x hx
    simp only [List.mem_reverse,decide_eq_true_eq] at hx ⊢
    exact fun hxd => hx (h.scanned_subset hd he hordered hxd)

end Supplements

/-- To supply further identifiers never hurts. A document that is accepted stays so, and its listing
holds the same statements. Clashes are reported as before, and where statements are left over, either
none is any more or some of these are. -/
theorem listing_of_supplements (h : d.Supplements e) (policy : Policy) :
    (∀ code, d.listing policy = .ok code → ∃ other, e.listing policy = .ok other ∧
        (e.run policy).emitted.Perm (d.run policy).emitted ∧ other.Perm code) ∧
      (∀ x count, d.listing policy = .error (.duplicate x count) →
        e.listing policy = .error (.duplicate x count)) ∧
      ∀ remaining, d.listing policy = .error (.unresolved remaining) →
        (∃ other, e.listing policy = .ok other) ∨
          ∃ others, e.listing policy = .error (.unresolved others) ∧
            others.Sublist remaining := by
  refine ⟨fun code hcode => ?_,fun x count hduplicate => ?_,fun remaining hremaining => ?_⟩
  · have hunique := unique_of_listing hcode (by simp)
    have hleft := h.leftOver_sublist hunique policy
    rw [(exists_listing_eq_ok_iff_leftOver hunique).mp ⟨code,hcode⟩,List.sublist_nil] at hleft
    obtain ⟨other,hother⟩ := (exists_listing_eq_ok_iff_leftOver (h.unique hunique)).mpr hleft
    obtain ⟨hd,rfl⟩ := emitted_perm hcode
    obtain ⟨he,rfl⟩ := emitted_perm hother
    have hperm := (he.trans (.of_eq h.placed)).trans hd.symm
    exact ⟨_,hother,hperm,h.code_eq ▸ hperm.map _⟩
  · rw [listing_eq_duplicate_iff] at hduplicate ⊢
    rw [h.required,h.statements]
    have hclashes : e.clashes = d.clashes := by
      funext y
      rw [clashes,clashes,h.statements]
    rwa [hclashes]
  · have hunique := unique_of_listing hremaining (by simp)
    obtain ⟨_,rfl⟩ := (listing_eq_unresolved_iff_leftOver hunique).mp hremaining
    by_cases hleft : e.leftOver policy = []
    · exact Or.inl ((exists_listing_eq_ok_iff_leftOver (h.unique hunique)).mpr hleft)
    · refine Or.inr ⟨_,(listing_eq_unresolved_iff_leftOver (h.unique hunique)).mpr ⟨hleft,rfl⟩,?_⟩
      exact (h.leftOver_sublist hunique policy).map _

/-- The cascading document with a label from the surroundings. -/
def furnished : Document :=
  { cascade with
    references := [.required ⟨"panel"⟩,.required ⟨"label"⟩,.supplied ⟨"label"⟩,.required ⟨"frame"⟩,
      .required ⟨"panel"⟩,.supplied ⟨"window"⟩] }

/-- With a label from the start, the panel and the frame are no longer dropped. -/
theorem listing_furnished : cascade.Supplements furnished ∧
    cascade.listing .discard = .error (.unresolved [
      ⟨.initialization,some ⟨"panel"⟩,[⟨"label"⟩]⟩,⟨.initialization,some ⟨"frame"⟩,[⟨"panel"⟩]⟩,
      ⟨.initialization,none,[]⟩]) ∧
    ∃ others, furnished.listing .discard = .error (.unresolved others) ∧
      others = [⟨.initialization,none,[]⟩] ∧
      others.Sublist [⟨.initialization,some ⟨"panel"⟩,[⟨"label"⟩]⟩,
        ⟨.initialization,some ⟨"frame"⟩,[⟨"panel"⟩]⟩,⟨.initialization,none,[]⟩] := by
  have hsupplements : cascade.Supplements furnished :=
    ⟨rfl,rfl,.keep _ (.keep _ (.insert _ (.keep _ (.keep _ (.insert _ .nil)))))⟩
  have hcascade : cascade.listing .discard = .error (.unresolved [
      ⟨.initialization,some ⟨"panel"⟩,[⟨"label"⟩]⟩,⟨.initialization,some ⟨"frame"⟩,[⟨"panel"⟩]⟩,
      ⟨.initialization,none,[]⟩]) := by decide +kernel
  have hfurnished : furnished.listing .discard =
      .error (.unresolved [⟨.initialization,none,[]⟩]) := by decide +kernel
  obtain ⟨_,_,hunresolved⟩ := listing_of_supplements hsupplements .discard
  refine ⟨hsupplements,hcascade,?_⟩
  rcases hunresolved _ hcascade with ⟨other,hother⟩ | ⟨others,hothers,hsublist⟩
  · cases hfurnished.symm.trans hother
  · refine ⟨others,hothers,?_,hsublist⟩
    cases hfurnished.symm.trans hothers
    rfl

end Document

end ObjectGraph
