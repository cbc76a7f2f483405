import Mathlib.Data.List.Nodup
import ObjectGraph.Registry.Lemmas

/-! # Registries in order

The registry of a list of entries holds the last entry of each identifier, in the order of the
identifiers. An insertion sort that replaces as it goes does the same as to drop the entries that a
later one replaces and to sort the rest.
-/
namespace ObjectGraph.Registry
variable {x : Identifier} {registration : Registration} {e f : Identifier × Registration}
variable {entries others : List (Identifier × Registration)}

/-- The entries that no later one of the same identifier replaces. -/
def lastEntries : List (Identifier × Registration) → List (Identifier × Registration)
  | [] => []
  | e :: rest => if rest.any (·.1 == e.1) then lastEntries rest else e :: lastEntries rest

/-- Entries by their identifiers, those of the same identifier as they were. -/
def inOrder (entries : List (Identifier × Registration)) : List (Identifier × Registration) :=
  entries.mergeSort fun e f => !decide (f.1 < e.1)

theorem inOrder_perm (entries : List (Identifier × Registration)) :
    (inOrder entries).Perm entries := List.mergeSort_perm _ _

theorem lastEntries_sublist (entries : List (Identifier × Registration)) :
    (lastEntries entries).Sublist entries := by
  induction entries with
  | nil => exact .slnil
  | cons e rest ih =>
    unfold lastEntries
    split
    · exact ih.cons e
    · exact ih.cons_cons e

theorem nodup_lastEntries (entries : List (Identifier × Registration)) :
    ((lastEntries entries).map (·.1)).Nodup := by
  induction entries with
  | nil => exact .nil
  | cons e rest ih =>
    unfold lastEntries
    split
    · exact ih
    · next hlast =>
      refine List.nodup_cons.mpr ⟨fun hmem => ?_,ih⟩
      obtain ⟨f,hf,hkey⟩ := List.mem_map.mp hmem
      exact hlast (List.any_eq_true.mpr
        ⟨f,(lastEntries_sublist rest).subset hf,beq_iff_eq.mpr hkey⟩)

theorem exists_mem_lastEntries (h : e ∈ entries) : ∃ f ∈ lastEntries entries, f.1 = e.1 := by
  induction entries generalizing e with
  | nil => cases h
  | cons g rest ih =>
    unfold lastEntries
    split
    · next hlater =>
      rcases List.mem_cons.mp h with rfl | h
      · obtain ⟨f,hf,hkey⟩ := List.any_eq_true.mp hlater
        obtain ⟨last,hlast,hsame⟩ := ih hf
        exact ⟨last,hlast,hsame.trans (beq_iff_eq.mp hkey)⟩
      · exact ih h
    · rcases List.mem_cons.mp h with rfl | h
      · exact ⟨e,List.mem_cons_self,rfl⟩
      · obtain ⟨last,hlast,hsame⟩ := ih h
        exact ⟨last,List.mem_cons_of_mem g hlast,hsame⟩

theorem lookup_eq_none_iff : lookup x entries = none ↔ ∀ e ∈ entries, e.1 ≠ x := by
  simp [lookup]

/-- The entry of an identifier in a list that holds one of each. -/
theorem lookup_eq_some_iff (h : (entries.map (·.1)).Nodup) :
    lookup x entries = some registration ↔ (x,registration) ∈ entries := by
  induction entries with
  | nil => simp [lookup]
  | cons e rest ih =>
    obtain ⟨hfresh,hrest⟩ := List.nodup_cons.mp h
    rw [lookup_cons,List.mem_cons]
    split
    · next hkey =>
      subst hkey
      have hother : (e.1,registration) ∉ rest := fun hmem =>
        hfresh (List.mem_map.mpr ⟨_,hmem,rfl⟩)
      simp only [Option.some.injEq,hother,or_false,Prod.ext_iff,true_and,eq_comm]
    · next hkey =>
      have hne : (x,registration) ≠ e := fun he => hkey (he ▸ rfl)
      rw [ih hrest,or_iff_right hne]

theorem lookup_perm (hperm : entries.Perm others) (h : (entries.map (·.1)).Nodup) (x : Identifier) :
    lookup x entries = lookup x others := by
  have hothers := (hperm.map (·.1)).nodup_iff.mp h
  apply Option.ext
  intro registration
  rw [lookup_eq_some_iff h,lookup_eq_some_iff hothers,hperm.mem_iff]

/-! An insertion replaces the entries before it. -/

theorem lookup_lastEntries_cons (e : Identifier × Registration)
    (rest : List (Identifier × Registration)) (x : Identifier) :
    lookup x (lastEntries (e :: rest)) =
      (lookup x (lastEntries rest)).or (if e.1 = x then some e.2 else none) := by
  rw [lastEntries]
  split
  · next hlater =>
    split
    · next hkey =>
      -- A later entry of the same identifier is found first.
      obtain ⟨f,hf,hsame⟩ := List.any_eq_true.mp hlater
      obtain ⟨last,hlast,hlastKey⟩ := exists_mem_lastEntries hf
      have hfound : lookup x (lastEntries rest) ≠ none := fun hnone =>
        lookup_eq_none_iff.mp hnone last hlast
          ((hlastKey.trans (beq_iff_eq.mp hsame)).trans hkey)
      obtain ⟨registration,hregistration⟩ := Option.ne_none_iff_exists'.mp hfound
      rw [hregistration,Option.some_or]
    · rw [Option.or_none]
  · next hlast =>
    rw [lookup_cons]
    split
    · next hkey =>
      have hnone : lookup x (lastEntries rest) = none := by
        refine lookup_eq_none_iff.mpr fun f hf hsame => hlast (List.any_eq_true.mpr ⟨f,?_,?_⟩)
        · exact (lastEntries_sublist rest).subset hf
        · exact beq_iff_eq.mpr (hsame.trans hkey.symm)
      rw [hnone,Option.none_or]
    · rw [Option.or_none]

theorem find?_foldl_insert (registry : Registry) (x : Identifier) :
    (entries.foldl (fun registry e => registry.insert e.1 e.2) registry).find? x =
      (lookup x (lastEntries entries)).or (registry.find? x) := by
  induction entries generalizing registry with
  | nil => rfl
  | cons e rest ih =>
    rw [List.foldl_cons,ih,find?_insert,lookup_lastEntries_cons,Option.or_assoc]
    split
    · rfl
    · rw [Option.none_or]

/-! Sorting by identifiers. -/

theorem pairwise_inOrder (h : (entries.map (·.1)).Nodup) :
    (inOrder entries).Pairwise (fun e f => e.1 < f.1) := by
  have hsorted : (inOrder entries).Pairwise (fun e f => (!decide (f.1 < e.1)) = true) := by
    refine List.pairwise_mergeSort ?_ ?_ entries
    · intro e f g hef hfg
      simp only [Bool.not_eq_true',decide_eq_false_iff_not] at hef hfg ⊢
      exact fun hge => hef (Identifier.lt_of_not_lt_of_lt hfg hge)
    · intro e f
      simp only [Bool.or_eq_true,Bool.not_eq_true',decide_eq_false_iff_not]
      by_cases hfe : f.1 < e.1
      · exact Or.inr (Identifier.lt_asymm hfe)
      · exact Or.inl hfe
  have hdistinct : (inOrder entries).Pairwise (fun e f => e.1 ≠ f.1) :=
    List.pairwise_map.mp (((inOrder_perm entries).map Prod.fst).nodup_iff.mpr h)
  refine (hsorted.and hdistinct).imp fun {e f} ⟨hef,hne⟩ => ?_
  simp only [Bool.not_eq_true',decide_eq_false_iff_not] at hef
  exact Classical.byContradiction fun hnot => hne (Identifier.eq_of_not_lt hnot hef)

/-- The registry of a list of entries is the sorted list of the last ones. -/
theorem entries_ofList (entries : List (Identifier × Registration)) :
    (ofList entries).entries = inOrder (lastEntries entries) := by
  have hnodup := nodup_lastEntries entries
  refine eq_of_lookup_eq (ofList entries).ascending (pairwise_inOrder hnodup) fun x => ?_
  refine (find?_foldl_insert empty x).trans ?_
  rw [find?_empty,Option.or_none,lookup_perm (inOrder_perm _).symm hnodup]

theorem ascending_iff : entries.Pairwise (fun e f => e.1 < f.1) ↔
    inOrder (lastEntries entries) = entries := by
  constructor
  · intro h
    rw [← entries_ofList]
    exact congrArg Registry.entries (ofList_entries ⟨entries,h⟩)
  · intro h
    rw [← h,← entries_ofList]
    exact (ofList entries).ascending

end ObjectGraph.Registry
