import ObjectGraph.Document.Assembly
import ObjectGraph.Proofs.Schedule.History
import ObjectGraph.Registry.Lemmas

/-! # Names in code

The code of an action is a template that the registry fills in: fixed text with the names of identifiers
in between. These identifiers are the dependencies of the action and the one that its statement
declares. So a listing depends on the names of such identifiers only, and on no class.
-/
namespace ObjectGraph

/-- A stretch of code: text as it stands, or the name of an identifier. -/
inductive Piece where
  | text (content : String)
  | name (x : Identifier)

/-- The pieces of some code, in the order in which they are written. -/
abbrev Template := List Piece

namespace Piece

def code (names : Identifier → String) : Piece → String
  | text content => content
  | name x => names x

def identifier? : Piece → Option Identifier
  | text _ => none
  | name x => some x

end Piece

namespace Template
variable {names others : Identifier → String} {x : Identifier}

def fill (names : Identifier → String) (template : Template) : String :=
  String.join (template.map (Piece.code names))

/-- The identifiers whose names fill the template in, in the order in which they do. -/
def identifiers (template : Template) : List Identifier := template.filterMap Piece.identifier?

@[simp] theorem fill_nil : fill names [] = "" := String.join_nil

@[simp] theorem fill_cons (piece : Piece) (rest : Template) :
    fill names (piece :: rest) = piece.code names ++ fill names rest := String.join_cons

@[simp] theorem fill_append (template rest : Template) :
    fill names (template ++ rest) = fill names template ++ fill names rest := by
  rw [fill,List.map_append,String.join_append]
  rfl

@[simp] theorem identifiers_nil : identifiers [] = [] := rfl

@[simp] theorem identifiers_text (content : String) (rest : Template) :
    identifiers (.text content :: rest) = identifiers rest := rfl

@[simp] theorem identifiers_name (x : Identifier) (rest : Template) :
    identifiers (.name x :: rest) = x :: identifiers rest := rfl

@[simp] theorem identifiers_append (template rest : Template) :
    identifiers (template ++ rest) = identifiers template ++ identifiers rest :=
  List.filterMap_append

/-- A template reads the names of its identifiers and no others. -/
theorem fill_congr {template : Template} (h : ∀ x ∈ template.identifiers, names x = others x) :
    template.fill names = template.fill others := by
  induction template with
  | nil => rfl
  | cons piece rest ih =>
    cases piece with
    | text content => rw [fill_cons,fill_cons,ih h,Piece.code,Piece.code]
    | name x =>
      obtain ⟨hx,hrest⟩ := List.forall_mem_cons.mp h
      rw [fill_cons,fill_cons,ih hrest,Piece.code,Piece.code,hx]

/-- The name of each identifier of a template stands in the code. -/
theorem exists_fill_eq {template : Template} (names : Identifier → String)
    (hx : x ∈ template.identifiers) :
    ∃ front back, template.fill names = front ++ names x ++ back := by
  induction template with
  | nil => cases hx
  | cons piece rest ih =>
    have hlater : x ∈ identifiers rest →
        ∃ front back, fill names (piece :: rest) = front ++ names x ++ back := by
      intro hx
      obtain ⟨front,back,hfill⟩ := ih hx
      exact ⟨piece.code names ++ front,back,by rw [fill_cons,hfill]; simp only [String.append_assoc]⟩
    cases piece with
    | text content => exact hlater hx
    | name y =>
      rcases List.mem_cons.mp hx with rfl | hx
      · exact ⟨"",fill names rest,by rw [fill_cons,String.empty_append]; rfl⟩
      · exact hlater hx

end Template

/-! The templates of actions. -/

def Value.template : Value → Template
  | literal text => [.text text]
  | reference x => [.name x]

def Argument.template (argument : Argument) : Template :=
  match argument.label with
  | none => argument.value.template
  | some label => .text label :: .text ": " :: argument.value.template

def Argument.listTemplate (arguments : List Argument) : Template :=
  .text "(" :: List.intercalate [.text ", "] (arguments.map template) ++ [.text ")"]

def Anchor.template (anchor : Anchor) : Template :=
  [.name anchor.owner,.text ".",.text anchor.property]

namespace Action

def boundTemplate (relation : Relation) (second : Option Anchor)
    (multiplier constant : Option Binary64) : Template :=
  match second with
  | none =>
    [.text relation.labelForConstant,.text ": ",.text (constant.getD Binary64.zero).text]
  | some anchor =>
    .text relation.labelForAnchor :: .text ": " :: anchor.template ++
      [.text (optionCode "multiplier" multiplier),.text (optionCode "constant" constant)]

/-- The template of an action in a statement that declares `declared`. -/
def template (declared : Option Identifier) : Action → Template
  | construct className arguments =>
    [.text "let ",declared.elim (.text "_") .name,.text " = ",.text className] ++
      Argument.listTemplate arguments
  | assign target key value => [.name target,.text ".",.text key,.text " = "] ++ value.template
  | invoke target method arguments =>
    [.name target,.text ".",.text method] ++ Argument.listTemplate arguments
  | attach parent child => [.name parent,.text ".addSubview(",.name child,.text ")"]
  | constrain first relation second multiplier constant =>
    first.template ++ .text ".constraint(" :: boundTemplate relation second multiplier constant ++
      [.text ").isActive = true"]
  | verbatim code _ => [.text code]

end Action

section
variable (names : Identifier → String)

@[simp] theorem Value.fill_template (value : Value) :
    value.template.fill names = value.code names := by
  cases value <;> simp [template,code,Piece.code]

@[simp] theorem Argument.fill_template (argument : Argument) :
    argument.template.fill names = argument.code names := by
  rcases argument with ⟨_ | label,value⟩ <;> simp [template,code,Piece.code,String.append_assoc]

theorem Template.fill_intercalate (templates : List Template) :
    fill names (List.intercalate [.text ", "] templates) =
      ", ".intercalate (templates.map (fill names)) := by
  induction templates with
  | nil => simp
  | cons template rest ih =>
    cases rest with
    | nil => simp
    | cons next rest =>
      rw [List.intercalate_cons_cons,List.map_cons,List.map_cons,String.intercalate_cons_cons,
        fill_append,fill_append,ih]
      simp [Piece.code]

@[simp] theorem Argument.fill_listTemplate (arguments : List Argument) :
    (listTemplate arguments).fill names = listCode names arguments := by
  have hmap : (arguments.map template).map (Template.fill names) =
      arguments.map (code names) := by
    rw [List.map_map]
    exact List.map_congr_left fun argument _ => argument.fill_template names
  rw [listTemplate,listCode,List.cons_append,Template.fill_cons,Template.fill_append,
    Template.fill_intercalate,hmap,String.append_assoc]
  simp [Piece.code]

@[simp] theorem Anchor.fill_template (anchor : Anchor) :
    anchor.template.fill names = anchor.code names := by
  simp [template,code,Piece.code,String.append_assoc]

/-- The code of an action is its template, filled in. -/
theorem Action.fill_template (declared : Option Identifier) (action : Action) :
    (action.template declared).fill names = action.code names declared := by
  cases action with
  | construct className arguments =>
    cases declared <;>
      simp [template,code,Piece.code,String.append_assoc,-String.reduceAppend]
  | assign target key value => simp [template,code,Piece.code,String.append_assoc]
  | invoke target method arguments => simp [template,code,Piece.code,String.append_assoc]
  | attach parent child => simp [template,code,Piece.code,String.append_assoc]
  | constrain first relation second multiplier constant =>
    cases second <;>
      simp [template,boundTemplate,code,boundCode,Piece.code,String.append_assoc]
  | verbatim text dependencies => simp [template,code,Piece.code]

end

/-! The identifiers of templates. -/

@[simp] theorem Value.identifiers_template (value : Value) :
    value.template.identifiers = value.mentions := by
  cases value <;> rfl

@[simp] theorem Argument.identifiers_template (argument : Argument) :
    argument.template.identifiers = argument.value.mentions := by
  rcases argument with ⟨_ | label,value⟩ <;> simp [template]

theorem Template.identifiers_intercalate (templates : List Template) :
    identifiers (List.intercalate [.text ", "] templates) = templates.flatMap identifiers := by
  induction templates with
  | nil => rfl
  | cons template rest ih =>
    cases rest with
    | nil => simp
    | cons next rest =>
      rw [List.intercalate_cons_cons,identifiers_append,identifiers_append,ih]
      simp

@[simp] theorem Argument.identifiers_listTemplate (arguments : List Argument) :
    (listTemplate arguments).identifiers = arguments.flatMap (·.value.mentions) := by
  simp [listTemplate,Template.identifiers_intercalate,List.flatMap_map]

@[simp] theorem Anchor.identifiers_template (anchor : Anchor) :
    anchor.template.identifiers = [anchor.owner] := rfl

namespace Action
variable {action : Action} {declared : Option Identifier} {x : Identifier}

theorem identifiers_boundTemplate (relation : Relation) (second : Option Anchor)
    (multiplier constant : Option Binary64) :
    (boundTemplate relation second multiplier constant).identifiers =
      second.toList.map (·.owner) := by
  cases second <;> rfl

/-- The identifier that the code of an action binds, which a construction alone does. -/
def bound (declared : Option Identifier) : Action → Option Identifier
  | construct _ _ => declared
  | _ => none

theorem declared_of_bound (h : action.bound declared = some x) : declared = some x := by
  cases action with
  | construct className arguments => exact h
  | _ => cases h

/-- Unless it is written by hand, the code of an action shows the identifier that it binds and then the
mentions of the action, in their order. -/
theorem identifiers_template (hcode : ∀ code dependencies, action ≠ .verbatim code dependencies) :
    (action.template declared).identifiers =
      (action.bound declared).toList ++ action.mentions := by
  cases action with
  | construct className arguments => cases declared <;> simp [template,bound,mentions]
  | verbatim code dependencies => exact absurd rfl (hcode code dependencies)
  | constrain first relation second multiplier constant =>
    simp [template,identifiers_boundTemplate,bound,mentions]
  | _ => simp [template,bound,mentions]

/-- The template of an action reads no names but those of what it depends on and of what its statement
declares. -/
theorem mem_of_mem_template (hx : x ∈ (action.template declared).identifiers) :
    x ∈ action.dependencies ∨ declared = some x := by
  rw [mem_dependencies]
  by_cases hcode : ∀ code dependencies, action ≠ .verbatim code dependencies
  · rw [identifiers_template hcode,List.mem_append,Option.mem_toList] at hx
    exact hx.symm.imp_right declared_of_bound
  · push Not at hcode
    obtain ⟨code,dependencies,rfl⟩ := hcode
    cases hx

/-- Unless its code is written by hand, the template of an action reads the names of all that it
depends on. -/
theorem mem_template (hcode : ∀ code dependencies, action ≠ .verbatim code dependencies)
    (hx : x ∈ action.dependencies) : x ∈ (action.template declared).identifiers := by
  rw [identifiers_template hcode]
  exact List.mem_append_right _ (mem_dependencies.mp hx)

theorem code_congr {names others : Identifier → String}
    (h : ∀ x, x ∈ action.dependencies ∨ declared = some x → names x = others x) :
    action.code names declared = action.code others declared := by
  rw [← fill_template,← fill_template]
  exact Template.fill_congr fun x hx => h x (mem_of_mem_template hx)

theorem exists_code_eq (names : Identifier → String) (declared : Option Identifier)
    (hcode : ∀ code dependencies, action ≠ .verbatim code dependencies)
    (hx : x ∈ action.dependencies) :
    ∃ front back, action.code names declared = front ++ names x ++ back := by
  rw [← fill_template]
  exact Template.exists_fill_eq names (mem_template hcode hx)

end Action

namespace Document
variable {d e document : Document} {policy : Policy} {x : Identifier} {registration : Registration}

/-- A schedule never looks at the registry. -/
theorem run_congr (hstatements : d.statements = e.statements)
    (hreferences : d.references = e.references) (policy : Policy) : d.run policy = e.run policy := by
  obtain ⟨statements,references,registry⟩ := d
  obtain ⟨_,_,other⟩ := e
  obtain rfl : statements = _ := hstatements
  obtain rfl : references = _ := hreferences
  rfl

theorem listing_congr (hstatements : d.statements = e.statements)
    (hreferences : d.references = e.references)
    (hnames : ∀ s ∈ d.statements, ∀ x, x ∈ s.dependencies ∨ s.declares = some x →
      d.nameOf x = e.nameOf x) (policy : Policy) : d.listing policy = e.listing policy := by
  have hrun := run_congr hstatements hreferences policy
  cases hd : d.listing policy with
  | error failure =>
    rw [listing,Run.listing_eq_error_iff,hrun] at hd
    exact (Run.listing_eq_error_iff.mpr hd).symm
  | ok code =>
    obtain ⟨hperm,rfl⟩ := emitted_perm hd
    have hnone := (Run.listing_eq_ok_iff.mp hd).1
    refine (Run.listing_eq_ok_iff.mpr ⟨hrun ▸ hnone,?_⟩).symm
    rw [← hrun]
    apply List.map_congr_left
    intro p hp
    exact Action.code_congr (hnames p.statement (mem_statements (hperm.mem_iff.mp hp)))

theorem nameOf_register (document : Document) (x y : Identifier) (registration : Registration) :
    (document.edit (.register x registration)).nameOf y =
      if x = y then registration.variableName else document.nameOf y := by
  rw [nameOf,edit,Registry.find?_insert]
  split <;> rfl

/-- To register an object makes no difference if its name stays the same, or if no code shows it. -/
theorem listing_register (h : registration.variableName = document.nameOf x ∨
      ∀ s ∈ document.statements, x ∉ s.dependencies ∧ s.declares ≠ some x) (policy : Policy) :
    (document.edit (.register x registration)).listing policy = document.listing policy := by
  symm
  apply listing_congr (d := document) (e := document.edit (.register x registration)) rfl rfl
  intro s hs y hy
  rw [nameOf_register]
  split
  · next hxy =>
    subst hxy
    rcases h with h | h
    · exact h.symm
    · exact absurd hy (not_or.mpr (h s hs))
  · rfl

/-- Code reads the names of dependencies and of the declared identifier, and it shows the name of every
dependency unless it is written by hand. So documents that give the same names to these identifiers have
the same listings. The classes of objects and the entries of other objects do not matter. -/
theorem listing_of_names (d e : Document) :
    (∀ (action : Action) (declared : Option Identifier),
        (∀ x, x ∈ action.dependencies ∨ declared = some x → d.nameOf x = e.nameOf x) →
        action.code d.nameOf declared = action.code e.nameOf declared) ∧
      (∀ (action : Action) (declared : Option Identifier),
        (∀ code dependencies, action ≠ .verbatim code dependencies) →
        ∀ x ∈ action.dependencies, ∃ front back,
          action.code d.nameOf declared = front ++ d.nameOf x ++ back) ∧
      (d.statements = e.statements → d.references = e.references →
        (∀ s ∈ d.statements, ∀ x, x ∈ s.dependencies ∨ s.declares = some x →
          d.nameOf x = e.nameOf x) →
        ∀ policy, d.listing policy = e.listing policy) ∧
      ∀ x registration, registration.variableName = d.nameOf x ∨
          (∀ s ∈ d.statements, x ∉ s.dependencies ∧ s.declares ≠ some x) →
        ∀ policy, (d.edit (.register x registration)).listing policy = d.listing policy :=
  ⟨fun _ _ => Action.code_congr,fun _ declared hcode _ => Action.exists_code_eq d.nameOf declared hcode,
    listing_congr,fun _ _ => listing_register⟩

/-- The late document with variables for its objects. -/
def named : Document :=
  { late with registry := .ofList [(⟨"panel"⟩,⟨"Panel","root"⟩),(⟨"label"⟩,⟨"Label","title"⟩)] }

/-- The same variables, with other classes and with a window that no statement speaks of. -/
def reclassed : Document :=
  { late with registry := .ofList [(⟨"window"⟩,⟨"Window","main"⟩),(⟨"label"⟩,⟨"Text","title"⟩),
      (⟨"panel"⟩,⟨"Stack","root"⟩)] }

/-- Other classes and an entry that nothing uses leave the listing as it is. -/
theorem listing_reclassed :
    let action : Action := .construct "Panel" [⟨none,.reference ⟨"label"⟩⟩]
    (∀ s ∈ named.statements, ∀ x, x ∈ s.dependencies ∨ s.declares = some x →
        named.nameOf x = reclassed.nameOf x) ∧
      named.listing .retain = .ok ["let title = Label()","title.size = 8",
        "let panel = Panel(label)","root.addSubview(title)","root.adopt(title)"] ∧
      named.listing .retain = reclassed.listing .retain ∧
      (named.edit (.register ⟨"window"⟩ ⟨"Window","main"⟩)).listing .retain =
        named.listing .retain ∧
      action.code named.nameOf (some ⟨"panel"⟩) = "let root = Panel(title)" ∧
      action.code named.nameOf (some ⟨"panel"⟩) = action.code reclassed.nameOf (some ⟨"panel"⟩) ∧
      ∃ front back, action.code named.nameOf (some ⟨"panel"⟩) = front ++ "title" ++ back := by
  intro action
  have hall : ∀ s ∈ named.statements, ∀ x ∈ s.dependencies ++ s.declares.toList,
      named.nameOf x = reclassed.nameOf x := by decide +kernel
  have hnames : ∀ s ∈ named.statements, ∀ x, x ∈ s.dependencies ∨ s.declares = some x →
      named.nameOf x = reclassed.nameOf x := by
    intro s hs x hx
    exact hall s hs x (List.mem_append.mpr (hx.imp_right Option.mem_toList.mpr))
  have hshownNames : ∀ x, x ∈ action.dependencies ∨ some ⟨"panel"⟩ = some x →
      named.nameOf x = reclassed.nameOf x := by
    have hboth : ∀ x ∈ action.dependencies ++ [⟨"panel"⟩], named.nameOf x = reclassed.nameOf x := by
      decide +kernel
    intro x hx
    refine hboth x (List.mem_append.mpr (hx.imp_right fun h => ?_))
    exact List.mem_singleton.mpr (Option.some.inj h).symm
  have hunused : ∀ s ∈ named.statements,
      ⟨"window"⟩ ∉ s.dependencies ∧ s.declares ≠ some ⟨"window"⟩ := by decide +kernel
  obtain ⟨hcode,hshown,hlisting,hregister⟩ := listing_of_names named reclassed
  exact ⟨hnames,by decide +kernel,hlisting rfl rfl hnames .retain,
    hregister _ _ (Or.inr hunused) .retain,by decide +kernel,hcode action _ hshownNames,
    hshown action _ nofun ⟨"label"⟩ (by decide)⟩

end Document

end ObjectGraph
