import ObjectGraph.Proofs.Schedule.Acceptance
import ObjectGraph.Proofs.Schedule.Lockstep

/-! # Clashing declarations

An identifier clashes if several initializations declare it. Passes emit and drop single declarations
only, so those that clash are all pending when the first pass looks for them. A document is refused for
the first clash in the order of its references, whatever else is blocked and under either policy.
-/
namespace ObjectGraph

/-- Runs report clashes that their passes have found. -/
theorem State.run_failure_eq_duplicate_iff {policy : Policy} {required : List Identifier}
    {state : State} {x : Identifier} {count : Nat} :
    (state.run policy required).failure = some (.duplicate x count) ↔
      (state.passes policy 1 required).failure = some (.duplicate x count) := by
  cases h : (state.passes policy 1 required).failure with
  | some failure => rw [run_of_failure h]
  | none =>
    rw [run_failure h]
    split <;> simp

namespace Document
variable {document : Document} {policy : Policy} {history : History} {x : Identifier} {count : Nat}
variable {worklist : List Identifier}

/-- Whether several statements declare `x`. -/
def clashes (document : Document) (x : Identifier) : Bool :=
  decide (1 < document.statements.countP (·.introduces x))

/-- The failure that reports all declarations of `x`. -/
def clash (document : Document) (x : Identifier) : Failure :=
  .duplicate x (document.statements.countP (·.introduces x))

theorem Coherent.exists_single (h : document.Coherent policy history)
    (hx : x ∈ history.declared ∨ x ∈ history.dropped) :
    ∃ p, document.declarationsOf x = [p] := by
  rcases hx with hx | hx
  · obtain ⟨p,hp,_⟩ := h.ordered.closed hx
    exact ⟨p,hp⟩
  · exact h.dropped x hx

/-- A look finds several declarations just when the document has them: none of them has left. -/
theorem Coherent.find_eq_duplicate_iff (h : document.Coherent policy history) :
    (document.after history).find x = .duplicate count ↔
      document.clashes x = true ∧ document.clash x = .duplicate x count := by
  rw [State.find_eq_duplicate_iff,declarationsOf_after,clashes,decide_eq_true_eq,clash,
    ← document.length_declarationsOf x]
  by_cases hx : x ∈ history.declared ∨ x ∈ history.dropped
  · obtain ⟨p,hp⟩ := h.exists_single hx
    rw [if_pos hx,hp]
    simp
    omega
  · rw [if_neg hx,Failure.duplicate.injEq]
    constructor
    · rintro ⟨rfl,hcount⟩
      exact ⟨hcount,rfl,rfl⟩
    · rintro ⟨hcount,_,rfl⟩
      exact ⟨rfl,hcount⟩

theorem Coherent.pass_failure (h : document.Coherent policy history)
    (hsub : worklist ⊆ document.required) :
    ((document.after history).pass policy worklist).failure =
      (worklist.find? document.clashes).map document.clash := by
  induction worklist generalizing history with
  | nil => rfl
  | cons x rest ih =>
    obtain ⟨hx,hrest⟩ := List.cons_subset.mp hsub
    by_cases hclash : document.clashes x = true
    · have hfind := h.find_eq_duplicate_iff.mpr ⟨hclash,rfl⟩
      rw [State.pass_of_duplicate hfind,List.find?_cons_of_pos hclash]
      rfl
    · rw [List.find?_cons_of_neg hclash]
      cases hfind : (document.after history).find x with
      | absent =>
        rw [State.pass_of_absent hfind]
        exact ih h hrest
      | ready p =>
        rw [State.pass_of_ready hfind,emit_after policy hfind]
        exact ih (h.declare hx hfind) hrest
      | blocked p =>
        rw [State.pass_of_blocked hfind]
        cases policy with
        | retain =>
          rw [State.declare_of_blocked_retain hfind]
          exact ih h hrest
        | discard =>
          rw [drop_after hfind]
          exact ih (h.drop hfind) hrest
      | duplicate count => exact absurd (h.find_eq_duplicate_iff.mp hfind).1 hclash

/-- Passes over a document fail for its first clash, already in the first of them and whatever history
they start from. -/
theorem Coherent.passes_failure (h : document.Coherent policy history) :
    ((document.after history).passes policy 1 document.required).failure =
      (document.required.find? document.clashes).map document.clash := by
  cases hfind : document.required.find? document.clashes with
  | none =>
    apply passes_after_failure_eq_none policy history
    intro x hx
    have hclash := List.find?_eq_none.mp hfind x hx
    rw [clashes,decide_eq_true_eq] at hclash
    exact Nat.not_lt.mp hclash
  | some x =>
    have hpass := h.pass_failure (List.Subset.refl document.required)
    rw [hfind] at hpass
    rw [State.passes_of_failed hpass]
    exact hpass

theorem passes_failure_eq_clash (document : Document) (policy : Policy) :
    ((State.start document).passes policy 1 document.required).failure =
      (document.required.find? document.clashes).map document.clash :=
  document.start_eq_after ▸ (coherent_start document policy).passes_failure

theorem listing_eq_duplicate_iff : document.listing policy = .error (.duplicate x count) ↔
    document.required.find? document.clashes = some x ∧
      count = document.statements.countP (·.introduces x) := by
  rw [listing,Run.listing_eq_error_iff,run,State.run_failure_eq_duplicate_iff,
    passes_failure_eq_clash,Option.map_eq_some_iff]
  constructor
  · rintro ⟨y,hy,hclash⟩
    obtain ⟨rfl,rfl⟩ := Failure.duplicate.inj hclash
    exact ⟨hy,rfl⟩
  · rintro ⟨hx,rfl⟩
    exact ⟨x,hx,rfl⟩

/-- A document is refused for a clash just when a required identifier clashes. The report names the
first one in the order of the references and counts all its declarations, under either policy. -/
theorem clash_reported (document : Document) (policy : Policy) :
    ((∃ x count, document.listing policy = .error (.duplicate x count)) ↔
        ∃ x ∈ document.required, 1 < document.statements.countP (·.introduces x)) ∧
      (∀ x count, document.listing policy = .error (.duplicate x count) ↔
        document.required.find? document.clashes = some x ∧
          count = document.statements.countP (·.introduces x)) ∧
      ∀ other x count, document.listing policy = .error (.duplicate x count) ↔
        document.listing other = .error (.duplicate x count) := by
  refine ⟨?_,fun x count => listing_eq_duplicate_iff,fun other x count => ?_⟩
  · simp only [listing_eq_duplicate_iff,exists_and_left,exists_eq,and_true]
    rw [← Option.isSome_iff_exists,List.find?_isSome]
    simp only [clashes,decide_eq_true_eq]
  · rw [listing_eq_duplicate_iff,listing_eq_duplicate_iff]

end Document

end ObjectGraph
