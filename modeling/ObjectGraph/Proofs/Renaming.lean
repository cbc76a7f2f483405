import ObjectGraph.Proofs.Naming
import ObjectGraph.Proofs.Occurrences
import ObjectGraph.Proofs.Schedule.Translation

/-! # Renamed documents

Identifiers are compared and nothing else is asked of them: neither their order nor their marks. So a
document whose identifiers are renamed throughout, different ones differently, goes through the same
schedule. Its code shows the new identifiers only where no variable is registered.
-/
namespace ObjectGraph

section
variable (f : Identifier → Identifier)

def Value.rename : Value → Value
  | literal text => .literal text
  | reference x => .reference (f x)

def Argument.rename (argument : Argument) : Argument :=
  { argument with value := argument.value.rename f }

def Anchor.rename (anchor : Anchor) : Anchor := { anchor with owner := f anchor.owner }

def Action.rename : Action → Action
  | construct className arguments => .construct className (arguments.map (.rename f))
  | assign target key value => .assign (f target) key (value.rename f)
  | invoke target method arguments => .invoke (f target) method (arguments.map (.rename f))
  | attach parent child => .attach (f parent) (f child)
  | constrain first relation second multiplier constant =>
    .constrain (first.rename f) relation (second.map (.rename f)) multiplier constant
  | verbatim code dependencies => .verbatim code (dependencies.map f)

def Statement.rename (statement : Statement) : Statement :=
  ⟨statement.phase,statement.declares.map f,statement.action.rename f⟩

/-- The entries of a registry under other identifiers. -/
def Registry.rename (registry : Registry) : Registry :=
  .ofList (registry.entries.map fun e => (f e.1,e.2))

/-- A document with `f x` for every identifier `x`. References stay supplied or required. -/
def Document.rename (document : Document) : Document :=
  ⟨document.statements.map (.rename f),document.references.map (.rename f),
    document.registry.rename f⟩

end

section
variable {f : Identifier → Identifier}

/-! What a renamed action depends on. -/

theorem Value.mentions_rename (value : Value) :
    (value.rename f).mentions = value.mentions.map f := by
  cases value <;> rfl

theorem Argument.mentions_rename (arguments : List Argument) :
    (arguments.map (rename f)).flatMap (·.value.mentions) =
      (arguments.flatMap (·.value.mentions)).map f := by
  rw [List.flatMap_map,List.map_flatMap]
  exact congrArg (List.flatMap · arguments) (funext fun argument => argument.value.mentions_rename)

theorem Action.mentions_rename (action : Action) :
    (action.rename f).mentions = action.mentions.map f := by
  cases action with
  | construct className arguments => exact Argument.mentions_rename arguments
  | assign target key value => exact congrArg (f target :: ·) value.mentions_rename
  | invoke target method arguments =>
    exact congrArg (f target :: ·) (Argument.mentions_rename arguments)
  | attach parent child => rfl
  | constrain first relation second multiplier constant => cases second <;> rfl
  | verbatim code dependencies => rfl

theorem Statement.dependencies_rename (hf : Function.Injective f) (statement : Statement) :
    (statement.rename f).dependencies = statement.dependencies.map f := by
  have hmentions := statement.action.mentions_rename (f := f)
  exact (congrArg List.eraseDups hmentions).trans (eraseDups_map hf)

/-- The renaming of identifiers as a translation of schedules. -/
def Translation.ofRenaming (f : Identifier → Identifier) (hf : Function.Injective f) :
    Translation where
  identifier := f
  statement := .rename f
  injective := hf
  phase := fun _ => rfl
  declares := fun _ => rfl
  dependencies := Statement.dependencies_rename hf

/-! What a renamed action looks like in code. -/

section
variable (names : Identifier → String)

theorem Value.code_rename (value : Value) :
    (value.rename f).code names = value.code (names ∘ f) := by
  cases value <;> rfl

theorem Argument.code_rename (argument : Argument) :
    (argument.rename f).code names = argument.code (names ∘ f) := by
  rcases argument with ⟨_ | label,value⟩
  · exact value.code_rename names
  · exact congrArg (label ++ ": " ++ ·) (value.code_rename names)

theorem Argument.listCode_rename (arguments : List Argument) :
    listCode names (arguments.map (rename f)) = listCode (names ∘ f) arguments := by
  have hcode : code names ∘ rename f = code (names ∘ f) :=
    funext fun argument => argument.code_rename names
  rw [listCode,List.map_map,hcode]
  rfl

theorem Action.boundCode_rename (relation : Relation) (second : Option Anchor)
    (multiplier constant : Option Binary64) :
    boundCode names relation (second.map (.rename f)) multiplier constant =
      boundCode (names ∘ f) relation second multiplier constant := by
  cases second <;> rfl

/-- Code shows the names of the new identifiers where it showed those of the old ones. -/
theorem Action.code_rename (declared : Option Identifier) (action : Action) :
    (action.rename f).code names (declared.map f) = action.code (names ∘ f) declared := by
  cases action with
  | construct className arguments =>
    have harguments := Argument.listCode_rename (f := f) names arguments
    cases declared <;> simp only [rename,code,harguments,Option.map_none,Option.map_some] <;> rfl
  | assign target key value => simp only [rename,code,value.code_rename,Function.comp]
  | invoke target method arguments =>
    simp only [rename,code,Argument.listCode_rename,Function.comp]
  | attach parent child => rfl
  | constrain first relation second multiplier constant =>
    simp only [rename,code,boundCode_rename]
    rfl
  | verbatim text dependencies => rfl

end

/-! The names of a renamed registry. -/

theorem Registry.find?_foldl_rename (hf : Function.Injective f) {a b : Registry}
    (h : ∀ x, b.find? (f x) = a.find? x) (entries : List (Identifier × Registration))
    (x : Identifier) :
    ((entries.map fun e => (f e.1,e.2)).foldl (fun registry e => registry.insert e.1 e.2) b).find?
        (f x) =
      (entries.foldl (fun registry e => registry.insert e.1 e.2) a).find? x := by
  induction entries generalizing a b with
  | nil => exact h x
  | cons e rest ih =>
    refine ih fun y => ?_
    simp only [find?_insert,hf.eq_iff,h]

theorem Registry.find?_rename (hf : Function.Injective f) (registry : Registry) (x : Identifier) :
    (registry.rename f).find? (f x) = registry.find? x := by
  have hfind := find?_foldl_rename hf (a := empty) (b := empty) (fun _ => rfl) registry.entries x
  exact hfind.trans (congrArg (find? · x) registry.ofList_entries)

end

namespace Document
variable {document : Document} {policy : Policy} {f : Identifier → Identifier}

/-- Every identifier that a statement depends on or declares has a variable of its own. -/
def NamesAll (document : Document) : Prop :=
  ∀ s ∈ document.statements, ∀ x, x ∈ s.dependencies ∨ s.declares = some x →
    (document.registry.find? x).isSome = true

theorem translates_rename (hf : Function.Injective f) (document : Document) :
    (Translation.ofRenaming f hf).Translates document (document.rename f) := ⟨rfl,rfl⟩

theorem nameOf_rename (hf : Function.Injective f) {x : Identifier}
    (hx : (document.registry.find? x).isSome = true) :
    (document.rename f).nameOf (f x) = document.nameOf x := by
  obtain ⟨registration,hregistration⟩ := Option.isSome_iff_exists.mp hx
  have hother := document.registry.find?_rename hf x
  rw [nameOf,nameOf,hregistration]
  exact congrArg (Option.elim · _ _) (hother.trans hregistration)

theorem code_rename (hf : Function.Injective f) (hnames : document.NamesAll) {s : Statement}
    (hs : s ∈ document.statements) :
    (document.rename f).code (s.rename f) = document.code s :=
  (s.action.code_rename _ s.declares).trans
    (Action.code_congr fun x hx => nameOf_rename hf (hnames s hs x hx))

end Document

/-- An identifier that takes up the external mark or is kept from it, as `marks` says. -/
def Identifier.marked (marks : Identifier → Bool) (x : Identifier) : Identifier :=
  ⟨String.ofList ((if marks x then externalMark else '+') :: x.text.toList)⟩

namespace Identifier
variable {marks : Identifier → Bool}

theorem hasExternalMark_marked (x : Identifier) : (x.marked marks).hasExternalMark = marks x := by
  rw [hasExternalMark,marked,String.toList_ofList]
  cases marks x <;> rfl

theorem marked_injective (marks : Identifier → Bool) : Function.Injective (marked marks) := by
  intro x y h
  have htext := congrArg (String.toList ∘ text) h
  simp only [Function.comp,marked,String.toList_ofList,List.cons.injEq] at htext
  rcases x with ⟨x⟩
  rcases y with ⟨y⟩
  exact congrArg mk (String.toList_inj.mp htext.2)

end Identifier

namespace Document
variable {f : Identifier → Identifier}

/-- A document whose identifiers are renamed throughout, different ones differently, emits the same
statements in the same order, or it fails for the same reason. If every identifier in use is registered,
then not even the code changes. In particular it makes no difference which identifiers carry the mark of
external objects, as long as the same references are supplied. -/
theorem schedule_of_renamed (hf : Function.Injective f) (document : Document) (policy : Policy) :
    ((document.rename f).run policy).emitted.map (·.position) =
        (document.run policy).emitted.map (·.position) ∧
      (∀ failure, document.listing policy = .error failure →
        (document.rename f).listing policy = .error (failure.rename f)) ∧
      (∀ code, document.listing policy = .ok code →
        (document.rename f).listing policy = .ok ((document.run policy).emitted.map fun p =>
          (document.rename f).code (p.statement.rename f))) ∧
      (document.NamesAll →
        (document.rename f).listing policy = (document.listing policy).mapError (.rename f)) ∧
      ∀ marks : Identifier → Bool, ∃ g : Identifier → Identifier, Function.Injective g ∧
        (∀ x, (g x).hasExternalMark = marks x) ∧
        ((document.rename g).run policy).emitted.map (·.position) =
          (document.run policy).emitted.map (·.position) ∧
        ((document.rename g).run policy).failure =
          (document.run policy).failure.map (.rename g) := by
  have htranslates := translates_rename hf document
  refine ⟨htranslates.positions policy,fun failure => htranslates.listing_of_error,
    fun code => htranslates.listing_of_ok,fun hnames => ?_,fun marks => ?_⟩
  · exact htranslates.listing policy fun s hs => code_rename hf hnames hs
  · have hmarked := translates_rename (Identifier.marked_injective marks) document
    exact ⟨_,Identifier.marked_injective marks,Identifier.hasExternalMark_marked,
      hmarked.positions policy,hmarked.failure policy⟩

/-- Marks on the identifiers of the panel and its label change neither what is emitted nor the code, and
what the early panel waits for is named as it is now. -/
theorem schedule_marked :
    let mark := Identifier.marked fun _ => true
    Function.Injective mark ∧ named.NamesAll ∧
      (named.rename mark).required = [⟨"-panel"⟩,⟨"-label"⟩] ∧
      ((named.rename mark).run .retain).emitted.map (·.position) = [2,3,0,4,1] ∧
      (named.rename mark).listing .retain = .ok ["let title = Label()","title.size = 8",
        "let panel = Panel(label)","root.addSubview(title)","root.adopt(title)"] ∧
      (named.rename mark).listing .discard =
        .error (.unresolved [⟨.initialization,some ⟨"-panel"⟩,[⟨"-label"⟩]⟩]) := by
  intro mark
  have hmark : Function.Injective mark := Identifier.marked_injective _
  have hall : ∀ s ∈ named.statements, ∀ x ∈ s.dependencies ++ s.declares.toList,
      (named.registry.find? x).isSome = true := by decide +kernel
  have hnames : named.NamesAll := by
    intro s hs x hx
    exact hall s hs x (List.mem_append.mpr (hx.imp_right Option.mem_toList.mpr))
  obtain ⟨hpositions,_,_,hlisting,_⟩ := schedule_of_renamed hmark named .retain
  obtain ⟨_,herror,_⟩ := schedule_of_renamed hmark named .discard
  refine ⟨hmark,hnames,by decide +kernel,hpositions.trans (by decide +kernel),?_,?_⟩
  · exact (hlisting hnames).trans (by decide +kernel)
  · exact herror (.unresolved [⟨.initialization,some ⟨"panel"⟩,[⟨"label"⟩]⟩]) (by decide +kernel)

end Document

end ObjectGraph
