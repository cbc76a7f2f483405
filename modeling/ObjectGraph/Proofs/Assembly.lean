import ObjectGraph.Document.Assembly
import ObjectGraph.Proofs.Equality
import ObjectGraph.Proofs.Format.Canonical
import ObjectGraph.Schedule.Run

/-! # What a document keeps of its assembly

Statements and references only ever go to the end of their lists, and a registration only replaces one
of the same identifier. So a document is its statements and its references in the order of their edits
and the last registration of each identifier. Edits that agree on these assemble the same document, in
whatever way edits of one kind come between those of another.
-/
namespace ObjectGraph

namespace Registry
variable {x : Identifier} {entries others : List (Identifier × Registration)}

theorem lookup_append :
    lookup x (entries ++ others) = (lookup x entries).or (lookup x others) := by
  rw [lookup,lookup,lookup,List.find?_append,Option.map_or]

theorem mem_entries_iff {registry : Registry} {registration : Registration} :
    (x,registration) ∈ registry.entries ↔ registry.find? x = some registration := by
  have hnodup : (registry.entries.map (·.1)).Nodup := by
    refine List.pairwise_map.mpr (registry.ascending.imp fun {e f} hlt he => ?_)
    exact Identifier.lt_irrefl f.1 (he ▸ hlt)
  exact (lookup_eq_some_iff hnodup).symm

/-- The last entry of an identifier is the first one from behind. -/
theorem lookup_lastEntries (x : Identifier) (entries : List (Identifier × Registration)) :
    lookup x (lastEntries entries) = lookup x entries.reverse := by
  induction entries with
  | nil => rfl
  | cons e rest ih =>
    rw [lookup_lastEntries_cons,ih,List.reverse_cons,lookup_append,lookup_cons]
    rfl

end Registry

namespace Edit

/-- What the last edit that registers an identifier says of it. -/
def lastRegistration (edits : List Edit) (x : Identifier) : Option Registration :=
  Registry.lookup x (edits.flatMap registrations).reverse

/-- Edits that leave the same behind, one list of them or the other. -/
structure Agree (edits others : List Edit) : Prop where
  statements : edits.flatMap Edit.statements = others.flatMap Edit.statements
  references : edits.flatMap Edit.references = others.flatMap Edit.references
  registrations : ∀ x, lastRegistration edits x = lastRegistration others x

end Edit

namespace Document
variable {document : Document} {edits others : List Edit}

theorem statements_foldl_edit : (edits.foldl edit document).statements =
    document.statements ++ edits.flatMap Edit.statements := by
  induction edits generalizing document with
  | nil => exact (List.append_nil _).symm
  | cons e rest ih =>
    rw [List.foldl_cons,ih,statements_edit,List.flatMap_cons,List.append_assoc]

theorem references_foldl_edit : (edits.foldl edit document).references =
    document.references ++ edits.flatMap Edit.references := by
  induction edits generalizing document with
  | nil => exact (List.append_nil _).symm
  | cons e rest ih =>
    rw [List.foldl_cons,ih,references_edit,List.flatMap_cons,List.append_assoc]

theorem registry_foldl_edit : (edits.foldl edit document).registry =
    (edits.flatMap Edit.registrations).foldl
      (fun registry r => registry.insert r.1 r.2) document.registry := by
  induction edits generalizing document with
  | nil => rfl
  | cons e rest ih =>
    rw [List.foldl_cons,ih,registry_edit,List.flatMap_cons,List.foldl_append]

theorem statements_ofEdits : (ofEdits edits).statements = edits.flatMap Edit.statements :=
  statements_foldl_edit

theorem references_ofEdits : (ofEdits edits).references = edits.flatMap Edit.references :=
  references_foldl_edit

theorem registry_ofEdits :
    (ofEdits edits).registry = .ofList (edits.flatMap Edit.registrations) := registry_foldl_edit

/-- Earlier registrations of an identifier are not seen. -/
theorem find?_ofEdits (x : Identifier) :
    (ofEdits edits).registry.find? x = Edit.lastRegistration edits x := by
  rw [registry_ofEdits,Registry.ofList,Registry.find?_foldl_insert,Registry.find?_empty,
    Option.or_none,Registry.lookup_lastEntries,Edit.lastRegistration]

/-- Edits assemble the same document exactly if they agree. -/
theorem ofEdits_eq_iff : ofEdits edits = ofEdits others ↔ Edit.Agree edits others := by
  constructor
  · intro h
    refine ⟨?_,?_,fun x => ?_⟩
    · rw [← statements_ofEdits,h,statements_ofEdits]
    · rw [← references_ofEdits,h,references_ofEdits]
    · rw [← find?_ofEdits,h,find?_ofEdits]
  · intro h
    have hregistry : (ofEdits edits).registry = (ofEdits others).registry :=
      Registry.eq_of_find?_eq fun x => by rw [find?_ofEdits,h.registrations,find?_ofEdits]
    rw [mk.injEq,statements_ofEdits,statements_ofEdits,references_ofEdits,references_ofEdits]
    exact ⟨h.statements,h.references,hregistry⟩

/-- The edits of a document in batches: its statements at once, then its references, and then one
registration for each entry. -/
def batches (document : Document) : List Edit :=
  .appendAll document.statements :: (document.references.map .refer ++
    document.registry.entries.map fun e => .register e.1 e.2)

/-- Every document can be assembled. -/
theorem ofEdits_batches (document : Document) : ofEdits document.batches = document := by
  have hstatements : document.batches.flatMap Edit.statements = document.statements := by
    simp [batches,Edit.statements,List.flatMap_map]
  have hreferences : document.batches.flatMap Edit.references = document.references := by
    simp [batches,Edit.references,List.flatMap_map]
  have hregistrations :
      document.batches.flatMap Edit.registrations = document.registry.entries := by
    simp [batches,Edit.registrations,List.flatMap_map]
  rcases document with ⟨statements,references,registry⟩
  rw [mk.injEq,statements_ofEdits,references_ofEdits,registry_ofEdits,hstatements,hreferences,
    hregistrations,Registry.ofList_entries]
  exact ⟨rfl,rfl,rfl⟩

/-- Edits agree with their batches, however they alternate. -/
theorem agree_batches (edits : List Edit) : Edit.Agree edits (ofEdits edits).batches :=
  ofEdits_eq_iff.mp (ofEdits_batches _).symm

/-- A document does not remember how it was assembled. Edits that agree on the statements, on the
references and on the last registration of each identifier assemble documents with the same look-ups and
names, which are equal unless a number is a NaN, are written as the same bytes, one entry for each
registered identifier in the order of the identifiers, and have the same listing under each policy. -/
theorem assembled_alike (h : Edit.Agree edits others) :
    let document := ofEdits edits
    let other := ofEdits others
    document.statements = edits.flatMap Edit.statements ∧ other.statements = document.statements ∧
      document.references = edits.flatMap Edit.references ∧
      other.references = document.references ∧
      (∀ x, document.registry.find? x = Edit.lastRegistration edits x ∧
        other.registry.find? x = document.registry.find? x ∧
        document.nameOf x = (Edit.lastRegistration edits x).elim x.text (·.variableName) ∧
        other.nameOf x = document.nameOf x) ∧
      ((document == other) = true ↔
        ∀ e ∈ edits, ∀ s ∈ e.statements, ∀ v ∈ s.action.numbers, v.isNaN = false) ∧
      (∃ entries : List (Identifier × Registration), entries.Pairwise (fun e f => e.1 < f.1) ∧
        (∀ x registration, (x,registration) ∈ entries ↔
          Edit.lastRegistration edits x = some registration) ∧
        document.encode = document.encodeWith entries ∧ other.encode = document.encode) ∧
      ∀ policy, other.listing policy = document.listing policy := by
  intro document other
  have hsame : other = document := (ofEdits_eq_iff.mpr h).symm
  have hnumbers : (document == document) = true ↔
      ∀ e ∈ edits, ∀ s ∈ e.statements, ∀ v ∈ s.action.numbers, v.isNaN = false := by
    rw [beq_self_iff,statements_ofEdits]
    simp only [List.mem_flatMap,forall_exists_index,and_imp]
    exact ⟨fun hall e he s hs => hall s e he hs,fun hall s e he hs => hall e he s hs⟩
  rw [hsame]
  refine ⟨statements_ofEdits,rfl,references_ofEdits,rfl,fun x => ?_,hnumbers,?_,fun _ => rfl⟩
  · have hfind : document.registry.find? x = Edit.lastRegistration edits x := find?_ofEdits x
    exact ⟨hfind,rfl,by rw [nameOf,hfind],rfl⟩
  · refine ⟨document.registry.entries,document.registry.ascending,fun x registration => ?_,
      encode_eq_encodeWith document,rfl⟩
    rw [Registry.mem_entries_iff,find?_ofEdits]

/-- Objects and statements as they are met, with a name that is given twice and taken back. -/
def stepwise : List Edit := [
  .enroll ⟨"label"⟩ ⟨"Label","label"⟩,
  .append (.constructing ⟨"label"⟩ "Label" []),
  .register ⟨"icon"⟩ ⟨"Icon","draft"⟩,
  .enroll ⟨"-window"⟩ ⟨"Window","window"⟩,
  .append (.plain .subviews (.attach ⟨"-window"⟩ ⟨"label"⟩)),
  .register ⟨"label"⟩ ⟨"Label","title"⟩,
  .append (.plain .constraints
    (.constrain ⟨⟨"label"⟩,"top"⟩ .equal none none (some ⟨0x4020000000000000⟩))),
  .register ⟨"icon"⟩ ⟨"Icon","icon"⟩]

/-- The same statements in one batch, behind the names that last. -/
def batched : List Edit := [
  .register ⟨"icon"⟩ ⟨"Icon","icon"⟩,
  .register ⟨"-window"⟩ ⟨"Window","window"⟩,
  .enroll ⟨"label"⟩ ⟨"Label","title"⟩,
  .refer (.supplied ⟨"-window"⟩),
  .appendAll [.constructing ⟨"label"⟩ "Label" [],
    .plain .subviews (.attach ⟨"-window"⟩ ⟨"label"⟩),
    .plain .constraints
      (.constrain ⟨⟨"label"⟩,"top"⟩ .equal none none (some ⟨0x4020000000000000⟩))]]

/-- Two ways to one document. -/
theorem stepwise_batched :
    Edit.Agree stepwise batched ∧ (ofEdits stepwise == ofEdits batched) = true ∧
      (ofEdits stepwise).nameOf ⟨"label"⟩ = "title" ∧
      (ofEdits batched).encode = (ofEdits stepwise).encode ∧
      (ofEdits stepwise).listing .discard =
        .ok ["let title = Label()","window.addSubview(title)",
          "title.top.constraint(equalToConstant: 8).isActive = true"] ∧
      (ofEdits batched).listing .discard = (ofEdits stepwise).listing .discard := by
  have hlast : (Registry.lastEntries (stepwise.flatMap Edit.registrations)).Perm
      (Registry.lastEntries (batched.flatMap Edit.registrations)) := by decide +kernel
  have hagree : Edit.Agree stepwise batched := by
    refine ⟨rfl,rfl,fun x => ?_⟩
    rw [Edit.lastRegistration,Edit.lastRegistration,← Registry.lookup_lastEntries,
      ← Registry.lookup_lastEntries]
    exact Registry.lookup_perm hlast (Registry.nodup_lastEntries _) x
  obtain ⟨_,_,_,_,hnames,hequal,⟨_,_,_,_,hbytes⟩,hlisting⟩ := assembled_alike hagree
  refine ⟨hagree,hequal.mpr ?_,?_,hbytes,by decide +kernel,hlisting .discard⟩
  · decide +kernel
  · exact (hnames ⟨"label"⟩).2.2.1

end Document

end ObjectGraph
