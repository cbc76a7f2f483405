import ObjectGraph.Registry.Basic

/-! # Look-ups in registries

A registry is its look-ups: an insertion changes the one of its identifier and no other, and two
registries in which every look-up agrees are the same.
-/
namespace ObjectGraph.Registry

theorem lookup_cons (x : Identifier) (e : Identifier × Registration)
    (rest : List (Identifier × Registration)) :
    lookup x (e :: rest) = if e.1 = x then some e.2 else lookup x rest := by
  by_cases h : e.1 = x <;> simp [lookup, h]

theorem lookup_insertEntry (x y : Identifier) (registration : Registration)
    (entries : List (Identifier × Registration)) :
    lookup y (insertEntry x registration entries) =
      if x = y then some registration else lookup y entries := by
  induction entries with
  | nil => exact lookup_cons y (x, registration) []
  | cons e rest ih =>
    simp only [insertEntry]
    split
    · exact lookup_cons y (x, registration) (e :: rest)
    · split
      · next hlt =>
        have hne : x = y → e.1 ≠ y := fun hx he =>
          Identifier.lt_irrefl y (by rw [hx, he] at hlt; exact hlt)
        simp only [lookup_cons, ih]
        grind
      · next hlt hgt =>
        have hx : x = e.1 := Identifier.eq_of_not_lt hlt hgt
        simp only [lookup_cons, hx]
        grind

theorem lookup_eq_none {x : Identifier} {entries : List (Identifier × Registration)}
    (h : ∀ e ∈ entries, x < e.1) : lookup x entries = none := by
  induction entries with
  | nil => rfl
  | cons e rest ih =>
    have he : e.1 ≠ x := fun he => Identifier.lt_irrefl x (he ▸ h e List.mem_cons_self)
    rw [lookup_cons, if_neg he]
    exact ih fun f hf => h f (List.mem_cons_of_mem e hf)

/-- Where two lists agree on the first identifier of one, the other starts no later. -/
theorem not_lt_of_lookup_eq {e f : Identifier × Registration}
    {rest others : List (Identifier × Registration)} (hothers : ∀ g ∈ others, f.1 < g.1)
    (h : lookup e.1 (e :: rest) = lookup e.1 (f :: others)) : ¬e.1 < f.1 := by
  intro hlt
  have hnone : lookup e.1 (f :: others) = none := lookup_eq_none fun g hg => by
    rcases List.mem_cons.mp hg with rfl | hg
    · exact hlt
    · exact Identifier.lt_trans hlt (hothers g hg)
  rw [lookup_cons, if_pos rfl, hnone] at h
  exact Option.some_ne_none e.2 h

/-- Ascending lists with the same entry for every identifier are equal. -/
theorem eq_of_lookup_eq {entries others : List (Identifier × Registration)}
    (he : entries.Pairwise (fun e f => e.1 < f.1)) (ho : others.Pairwise (fun e f => e.1 < f.1))
    (h : ∀ x, lookup x entries = lookup x others) : entries = others := by
  induction entries generalizing others with
  | nil =>
    cases others with
    | nil => rfl
    | cons f others =>
      have hf := h f.1
      rw [lookup_cons, if_pos rfl] at hf
      exact absurd hf (Option.some_ne_none f.2).symm
  | cons e entries ih =>
    cases others with
    | nil =>
      have hf := h e.1
      rw [lookup_cons, if_pos rfl] at hf
      exact absurd hf (Option.some_ne_none e.2)
    | cons f others =>
      rcases List.pairwise_cons.mp he with ⟨hle, he⟩
      rcases List.pairwise_cons.mp ho with ⟨hlf, ho⟩
      have hkey : e.1 = f.1 := Identifier.eq_of_not_lt
        (not_lt_of_lookup_eq hlf (h e.1)) (not_lt_of_lookup_eq hle (h f.1).symm)
      have hinfo : e.2 = f.2 := by simpa [lookup_cons, hkey] using h e.1
      have hrest : entries = others := ih he ho fun x => by
        by_cases hx : e.1 = x
        · subst hx
          rw [lookup_eq_none hle, lookup_eq_none fun g hg => hkey ▸ hlf g hg]
        · have := h x
          rwa [lookup_cons, lookup_cons, if_neg hx, if_neg (hkey ▸ hx)] at this
      rw [hrest, Prod.ext hkey hinfo]

@[simp] theorem find?_empty (x : Identifier) : empty.find? x = none := rfl

theorem find?_insert (registry : Registry) (x y : Identifier) (registration : Registration) :
    (registry.insert x registration).find? y =
      if x = y then some registration else registry.find? y :=
  lookup_insertEntry x y registration registry.entries

/-- Registries with the same look-ups are the same. -/
theorem eq_of_find?_eq {a b : Registry} (h : ∀ x, a.find? x = b.find? x) : a = b := by
  rcases a with ⟨entries, hentries⟩
  rcases b with ⟨others, hothers⟩
  cases eq_of_lookup_eq hentries hothers h
  rfl

theorem insertEntry_of_forall_lt {x : Identifier} {registration : Registration}
    {entries : List (Identifier × Registration)} (h : ∀ e ∈ entries, e.1 < x) :
    insertEntry x registration entries = entries ++ [(x, registration)] := by
  induction entries with
  | nil => rfl
  | cons e rest ih =>
    rcases List.forall_mem_cons.mp h with ⟨he, hrest⟩
    rw [insertEntry, if_neg (Identifier.lt_asymm he), if_pos he, ih hrest, List.cons_append]

/-- Entries that ascend from the last one of a registry go to its end. -/
theorem entries_foldl_insert (registry : Registry) {entries : List (Identifier × Registration)}
    (h : (registry.entries ++ entries).Pairwise (fun e f => e.1 < f.1)) :
    (entries.foldl (fun registry e => registry.insert e.1 e.2) registry).entries =
      registry.entries ++ entries := by
  induction entries generalizing registry with
  | nil => simp
  | cons e rest ih =>
    rcases List.pairwise_append.mp h with ⟨_, _, hcross⟩
    have hinsert : (registry.insert e.1 e.2).entries = registry.entries ++ [e] :=
      insertEntry_of_forall_lt fun f hf => hcross f hf e List.mem_cons_self
    have hnext := ih (registry.insert e.1 e.2)
    simp only [hinsert, List.append_assoc, List.singleton_append] at hnext
    exact hnext h

/-- A registry is the registry of its entries. -/
theorem ofList_entries (registry : Registry) : ofList registry.entries = registry := by
  rcases registry with ⟨entries, hentries⟩
  have h := entries_foldl_insert empty (entries.nil_append.symm ▸ hentries)
  rw [ofList, mk.injEq]
  exact h

end ObjectGraph.Registry
