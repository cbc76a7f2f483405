import Mathlib.Algebra.GroupWithZero.Nat

/-! # Lists in general

Facts on lists that proofs about documents, schedules and their bytes share.
-/
namespace ObjectGraph

section
variable {α β : Type}

theorem list_beq_self_iff [BEq α] {list : List α} :
    (list == list) = true ↔ ∀ a ∈ list, (a == a) = true := by
  induction list with
  | nil => simp
  | cons a rest ih => simp only [List.cons_beq_cons,Bool.and_eq_true,ih,List.forall_mem_cons]

/-- What stands in the front part of a list stands before what stands in the back part. -/
theorem exists_lt_getElem? {front back : List α} {a b : α} (ha : a ∈ front) (hb : b ∈ back) :
    ∃ i j : Nat, i < j ∧ (front ++ back)[i]? = some a ∧ (front ++ back)[j]? = some b := by
  obtain ⟨i,hi,rfl⟩ := List.mem_iff_getElem.mp ha
  obtain ⟨j,hj,rfl⟩ := List.mem_iff_getElem.mp hb
  refine ⟨i,front.length + j,by omega,?_,?_⟩
  · rw [List.getElem?_append_left hi,List.getElem?_eq_getElem hi]
  · rw [List.getElem?_append_right (by omega),Nat.add_sub_cancel_left,List.getElem?_eq_getElem hj]

/-- Elements that contribute nothing may be left out. -/
theorem flatMap_filter_of_nil {list : List α} {keep : α → Bool} {f : α → List β}
    (h : ∀ a ∈ list, keep a = false → f a = []) :
    (list.filter keep).flatMap f = list.flatMap f := by
  induction list with
  | nil => rfl
  | cons a rest ih =>
    obtain ⟨ha,hrest⟩ := List.forall_mem_cons.mp h
    cases hkeep : keep a with
    | true => rw [List.filter_cons_of_pos hkeep,List.flatMap_cons,List.flatMap_cons,ih hrest]
    | false =>
      rw [List.filter_cons_of_neg (by simp [hkeep]),List.flatMap_cons,ha hkeep,List.nil_append,
        ih hrest]

theorem sum_le_length_flatMap {weight : α → Nat} {f : α → List β}
    (h : ∀ a, weight a ≤ (f a).length) (list : List α) :
    (list.map weight).sum ≤ (list.flatMap f).length := by
  induction list with
  | nil => exact Nat.zero_le _
  | cons a list ih =>
    rw [List.map_cons,List.sum_cons,List.flatMap_cons,List.length_append]
    exact Nat.add_le_add (h a) ih

/-- A list that is put together front to back is there if its rest is. -/
theorem map_cons_eq_ok_iff {ε : Type} {a : α} {result : Except ε (List α)} {list : List α} :
    (a :: ·) <$> result = .ok list ↔ ∃ rest, list = a :: rest ∧ result = .ok rest := by
  cases result with
  | error fault => simp [Functor.map,Except.map]
  | ok rest => simp [Functor.map,Except.map,eq_comm]

end

end ObjectGraph
