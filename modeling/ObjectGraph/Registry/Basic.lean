import ObjectGraph.Identifier.Basic

/-! # Registries

A registry gives objects their class and the variable that code uses for them. It holds one entry
for an identifier and keeps its entries in the order of the identifiers, so that two registries with
the same look-ups are the same registry.
-/
namespace ObjectGraph

/-- The class of an object and its variable in generated code. -/
structure Registration where
  className : String
  variableName : String
  deriving DecidableEq

/-- Entries by identifier, strictly ascending. -/
structure Registry where
  entries : List (Identifier × Registration)
  ascending : entries.Pairwise (fun e f => e.1 < f.1)
  deriving DecidableEq

namespace Registry

def empty : Registry := ⟨[], .nil⟩

/-- Puts an entry in its place, in exchange for an earlier one of the same identifier. -/
def insertEntry (x : Identifier) (registration : Registration) :
    List (Identifier × Registration) → List (Identifier × Registration)
  | [] => [(x, registration)]
  | e :: rest =>
    if x < e.1 then (x, registration) :: e :: rest
    else if e.1 < x then e :: insertEntry x registration rest
    else (x, registration) :: rest

theorem mem_insertEntry {x : Identifier} {registration : Registration}
    {entries : List (Identifier × Registration)} {e : Identifier × Registration}
    (h : e ∈ insertEntry x registration entries) : e = (x, registration) ∨ e ∈ entries := by
  induction entries with
  | nil => simpa [insertEntry] using h
  | cons f rest ih =>
    simp only [insertEntry] at h
    split at h
    · simpa using h
    · split at h
      · rcases List.mem_cons.mp h with h | h
        · exact Or.inr (h ▸ List.mem_cons_self)
        · exact (ih h).imp_right (List.mem_cons_of_mem f)
      · exact (List.mem_cons.mp h).imp_right (List.mem_cons_of_mem f)

theorem pairwise_insertEntry {entries : List (Identifier × Registration)} (x : Identifier)
    (registration : Registration) (h : entries.Pairwise (fun e f => e.1 < f.1)) :
    (insertEntry x registration entries).Pairwise (fun e f => e.1 < f.1) := by
  induction entries with
  | nil => simp [insertEntry]
  | cons e rest ih =>
    rcases List.pairwise_cons.mp h with ⟨he, hrest⟩
    simp only [insertEntry]
    split
    · next hlt =>
      refine List.pairwise_cons.mpr ⟨fun f hf => ?_, h⟩
      rcases List.mem_cons.mp hf with rfl | hf
      · exact hlt
      · exact Identifier.lt_trans hlt (he f hf)
    · split
      · next hgt =>
        refine List.pairwise_cons.mpr ⟨fun f hf => ?_, ih hrest⟩
        rcases mem_insertEntry hf with rfl | hf
        · exact hgt
        · exact he f hf
      · next hlt hgt =>
        have hx : x = e.1 := Identifier.eq_of_not_lt hlt hgt
        exact List.pairwise_cons.mpr ⟨fun f hf => hx ▸ he f hf, hrest⟩

def insert (registry : Registry) (x : Identifier) (registration : Registration) : Registry :=
  ⟨insertEntry x registration registry.entries,
    pairwise_insertEntry x registration registry.ascending⟩

/-- The entry of `x` in a list, the first one if there are several. -/
def lookup (x : Identifier) (entries : List (Identifier × Registration)) : Option Registration :=
  (entries.find? (·.1 == x)).map (·.2)

def find? (registry : Registry) (x : Identifier) : Option Registration := lookup x registry.entries

/-- The registry of a list of entries, in which a later entry of an identifier replaces an earlier
one. -/
def ofList (entries : List (Identifier × Registration)) : Registry :=
  entries.foldl (fun registry e => registry.insert e.1 e.2) empty

end Registry

end ObjectGraph
