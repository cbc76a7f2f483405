import Mathlib.Data.List.Basic
import Mathlib.Data.List.Induction
import Mathlib.Data.List.Nodup
import ObjectGraph.Identifier.Basic

/-! # First occurrences

A list of identifiers is rid of its repetitions front to back: an identifier joins those gathered so
far, at the end, unless it is among them. What is gathered holds every identifier of the list once, in
the order of first occurrences.
-/
namespace ObjectGraph

/-- The identifiers gathered so far, with one more unless it is among them. -/
def gather (kept : List Identifier) (x : Identifier) : List Identifier :=
  if x ∈ kept then kept else kept ++ [x]

section
variable {front kept : List Identifier} {x y z : Identifier}

theorem gather_of_mem (hx : x ∈ kept) : gather kept x = kept := if_pos hx

theorem gather_of_notMem (hx : x ∉ kept) : gather kept x = kept ++ [x] := if_neg hx

theorem mem_gather : y ∈ gather kept x ↔ y ∈ kept ∨ y = x := by
  by_cases hx : x ∈ kept
  · rw [gather_of_mem hx]
    exact (or_iff_left_of_imp fun hy => hy ▸ hx).symm
  · rw [gather_of_notMem hx,List.mem_append,List.mem_singleton]

/-- A further entry of a list does not change which identifiers stand before one that it holds. -/
theorem idxOf_append_lt_iff (hx : x ∈ front) :
    (front ++ [z]).idxOf y < (front ++ [z]).idxOf x ↔ front.idxOf y < front.idxOf x := by
  rw [List.idxOf_append_of_mem hx]
  by_cases hy : y ∈ front
  · rw [List.idxOf_append_of_mem hy]
  · have hlt := List.idxOf_lt_length_of_mem hx
    rw [List.idxOf_append_of_notMem hy,List.idxOf_of_notMem hy]
    omega

/-- All that a list holds stands before an identifier that is new at its end. -/
theorem idxOf_append_lt_self_iff (hx : x ∉ front) :
    (front ++ [x]).idxOf y < (front ++ [x]).idxOf x ↔ y ∈ front := by
  rw [List.idxOf_append_of_notMem hx,List.idxOf_cons_self,Nat.add_zero]
  by_cases hy : y ∈ front
  · rw [List.idxOf_append_of_mem hy]
    exact iff_of_true (List.idxOf_lt_length_of_mem hy) hy
  · rw [List.idxOf_append_of_notMem hy]
    exact iff_of_false (by omega) hy

theorem eraseDups_append_of_mem (hx : x ∈ front) : (front ++ [x]).eraseDups = front.eraseDups := by
  rw [List.eraseDups_append]
  simp [List.removeAll,hx]

theorem eraseDups_append_of_notMem (hx : x ∉ front) :
    (front ++ [x]).eraseDups = front.eraseDups ++ [x] := by
  rw [List.eraseDups_append]
  simp [List.removeAll,hx,List.eraseDups_cons]

/-- An injection keeps first occurrences. -/
theorem eraseDups_map {identifiers : List Identifier} {f : Identifier → Identifier}
    (hf : Function.Injective f) :
    (identifiers.map f).eraseDups = identifiers.eraseDups.map f := by
  induction identifiers using List.reverseRecOn with
  | nil => rfl
  | append_singleton front x ih =>
    rw [List.map_append,List.map_singleton]
    by_cases hx : x ∈ front
    · rw [eraseDups_append_of_mem hx,eraseDups_append_of_mem (List.mem_map_of_mem hx),ih]
    · have hmap : f x ∉ front.map f := mt (List.mem_map_of_injective hf).mp hx
      rw [eraseDups_append_of_notMem hx,eraseDups_append_of_notMem hmap,ih,List.map_append,
        List.map_singleton]

/-- An ascending list without its repetitions ascends strictly. -/
theorem pairwise_lt_eraseDups {identifiers : List Identifier}
    (h : identifiers.Pairwise fun a b => ¬b < a) : identifiers.eraseDups.Pairwise (· < ·) := by
  induction identifiers using List.reverseRecOn with
  | nil => exact .nil
  | append_singleton front x ih =>
    obtain ⟨hfront,-,hlast⟩ := List.pairwise_append.mp h
    by_cases hx : x ∈ front
    · rw [eraseDups_append_of_mem hx]
      exact ih hfront
    · rw [eraseDups_append_of_notMem hx]
      refine List.pairwise_append.mpr ⟨ih hfront,List.pairwise_singleton _ x,fun a ha b hb => ?_⟩
      obtain rfl := List.mem_singleton.mp hb
      have ha := List.mem_eraseDups.mp ha
      apply Classical.byContradiction
      intro hlt
      exact hx (Identifier.eq_of_not_lt hlt (hlast a ha b List.mem_cons_self) ▸ ha)

/-- Gathering a list front to back rids it of its repetitions. -/
theorem foldl_gather (trail : List Identifier) : trail.foldl gather [] = trail.eraseDups := by
  induction trail using List.reverseRecOn with
  | nil => rfl
  | append_singleton front x ih =>
    rw [List.foldl_append,ih,List.foldl_cons,List.foldl_nil]
    by_cases hx : x ∈ front
    · rw [eraseDups_append_of_mem hx,gather_of_mem (List.mem_eraseDups.mpr hx)]
    · rw [eraseDups_append_of_notMem hx,gather_of_notMem (mt List.mem_eraseDups.mp hx)]

end

/-- What a trail of identifiers leaves when its repetitions are dropped. -/
structure FirstOccurrences (trail kept : List Identifier) : Prop where
  nodup : kept.Nodup
  mem_iff : ∀ x, x ∈ kept ↔ x ∈ trail
  idxOf_lt_iff : ∀ x y, y ∈ trail → (kept.idxOf x < kept.idxOf y ↔ trail.idxOf x < trail.idxOf y)

namespace FirstOccurrences
variable {trail kept : List Identifier}

theorem nil : FirstOccurrences [] [] := ⟨List.nodup_nil,fun _ => Iff.rfl,nofun⟩

/-- One more identifier on the trail is gathered if it is new. -/
theorem push (h : FirstOccurrences trail kept) (x : Identifier) :
    FirstOccurrences (trail ++ [x]) (gather kept x) := by
  have hmem : ∀ y, y ∈ gather kept x ↔ y ∈ trail ++ [x] := by
    intro y
    rw [mem_gather,h.mem_iff,List.mem_append,List.mem_singleton]
  by_cases hx : x ∈ trail
  · have hkept := gather_of_mem ((h.mem_iff x).mpr hx)
    rw [hkept] at hmem ⊢
    refine ⟨h.nodup,hmem,fun y z hz => ?_⟩
    have hz : z ∈ trail := (h.mem_iff z).mp ((hmem z).mpr hz)
    rw [h.idxOf_lt_iff y z hz,idxOf_append_lt_iff hz]
  · have hnew : x ∉ kept := mt (h.mem_iff x).mp hx
    rw [gather_of_notMem hnew] at hmem ⊢
    refine ⟨List.nodup_append_comm.mpr (List.nodup_cons.mpr ⟨hnew,h.nodup⟩),hmem,fun y z hz => ?_⟩
    rcases List.mem_append.mp hz with hz | hz
    · rw [idxOf_append_lt_iff hz,idxOf_append_lt_iff ((h.mem_iff z).mpr hz),h.idxOf_lt_iff y z hz]
    · obtain rfl := List.mem_singleton.mp hz
      rw [idxOf_append_lt_self_iff hx,idxOf_append_lt_self_iff hnew,h.mem_iff]

theorem append (h : FirstOccurrences trail kept) (rest : List Identifier) :
    FirstOccurrences (trail ++ rest) (rest.foldl gather kept) := by
  induction rest generalizing trail kept with
  | nil => rwa [List.append_nil]
  | cons x rest ih =>
    rw [List.append_cons,List.foldl_cons]
    exact ih (h.push x)

theorem eraseDups (trail : List Identifier) : FirstOccurrences trail trail.eraseDups := by
  rw [← foldl_gather]
  exact nil.append trail

/-- Identifiers that are not on the trail come after all that are. -/
theorem lt_iff (h : FirstOccurrences trail kept) (x y : Identifier) :
    kept.idxOf x < kept.idxOf y ↔ trail.idxOf x < trail.idxOf y := by
  by_cases hy : y ∈ trail
  · exact h.idxOf_lt_iff x y hy
  · have hkept : y ∉ kept := mt (h.mem_iff y).mp hy
    rw [List.idxOf_of_notMem hy,List.idxOf_of_notMem hkept,List.idxOf_lt_length_iff,
      List.idxOf_lt_length_iff,h.mem_iff]

/-- One identifier is left when nothing else is on the trail. -/
theorem eq_singleton_iff (h : FirstOccurrences trail kept) (x : Identifier) :
    kept = [x] ↔ trail ≠ [] ∧ ∀ y ∈ trail, y = x := by
  have hnil : kept = [] ↔ trail = [] := by
    simp only [List.eq_nil_iff_forall_not_mem,h.mem_iff]
  have hne : kept ≠ [x] ↔ trail = [] ∨ ∃ y ∈ trail, y ≠ x := by
    rw [h.nodup.ne_singleton_iff,hnil]
    simp only [h.mem_iff]
  rw [← not_iff_not,← ne_eq,hne]
  push Not
  exact or_iff_not_imp_left

end FirstOccurrences

end ObjectGraph
