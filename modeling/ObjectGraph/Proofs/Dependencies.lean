import ObjectGraph.Proofs.Naming
import ObjectGraph.Proofs.Occurrences

/-! # Dependencies and mentions

The mentions of an action are the identifiers in its code, in the order in which they stand there, and
code written by hand comes with a list of them. Its dependencies are these mentions without repetitions.
So how often an action mentions an identifier makes no difference to what it depends on.
-/
namespace ObjectGraph.Action
variable {action : Action} {x : Identifier}

theorem firstOccurrences_dependencies (action : Action) :
    FirstOccurrences action.mentions action.dependencies := .eraseDups action.mentions

theorem needsOnly_iff_mentions :
    action.needsOnly x = true ↔ action.mentions ≠ [] ∧ ∀ y ∈ action.mentions, y = x := by
  rw [needsOnly_eq_true_iff]
  exact action.firstOccurrences_dependencies.eq_singleton_iff x

/-- Code that binds nothing shows the mentions of its action and no other identifier. -/
theorem identifiers_template_none
    (hcode : ∀ code listed, action ≠ .verbatim code listed) :
    (action.template none).identifiers = action.mentions := by
  have hbound : action.bound none = none := by cases action <;> rfl
  rw [identifiers_template hcode,hbound]
  rfl

/-- The dependencies of an action are its mentions, each once and in the order of first mentions. An
action needs `x` alone if it mentions `x` and nothing else, however often it does. What it mentions is
what its code shows, one identifier behind the other, or else the list that comes with its code. -/
theorem dependencies_by_first_mention (action : Action) :
    action.dependencies.Nodup ∧
      (∀ x, x ∈ action.dependencies ↔ x ∈ action.mentions) ∧
      (∀ x y, action.dependencies.idxOf x < action.dependencies.idxOf y ↔
        action.mentions.idxOf x < action.mentions.idxOf y) ∧
      (∀ x, action.needsOnly x = true ↔
        action.mentions ≠ [] ∧ ∀ y ∈ action.mentions, y = x) ∧
      (∀ x y, action.needsOnly x = true → action.needsOnly y = true → x = y) ∧
      (∀ code listed, action = .verbatim code listed → action.mentions = listed) ∧
      ((∀ code listed, action ≠ .verbatim code listed) →
        (action.template none).identifiers = action.mentions ∧
          ∀ names, (action.template none).fill names = action.code names none) := by
  have hfirst := action.firstOccurrences_dependencies
  refine ⟨hfirst.nodup,hfirst.mem_iff,hfirst.lt_iff,fun _ => needsOnly_iff_mentions,
    fun _ _ => eq_of_needsOnly,?_,fun hcode => ⟨identifiers_template_none hcode,?_⟩⟩
  · rintro code listed rfl
    rfl
  · exact fun names => fill_template names none action

/-- A call that mentions one object twice, a constraint between two anchors of one object, and code written
by hand with an object listed twice. -/
theorem dependencies_restacked :
    let restack : Action := .invoke ⟨"window"⟩ "restack" [⟨none,.reference ⟨"label"⟩⟩,
      ⟨some "above",.reference ⟨"panel"⟩⟩,⟨some "by",.literal "8"⟩,⟨none,.reference ⟨"label"⟩⟩]
    let square : Action := .constrain ⟨⟨"panel"⟩,"width"⟩ .equal (some ⟨⟨"panel"⟩,"height"⟩) none none
    let note : Action := .verbatim "note()" [⟨"label"⟩,⟨"panel"⟩,⟨"label"⟩]
    (∀ code listed, restack ≠ .verbatim code listed) ∧
      (restack.template none).identifiers = [⟨"window"⟩,⟨"label"⟩,⟨"panel"⟩,⟨"label"⟩] ∧
      restack.mentions = [⟨"window"⟩,⟨"label"⟩,⟨"panel"⟩,⟨"label"⟩] ∧
      restack.dependencies = [⟨"window"⟩,⟨"label"⟩,⟨"panel"⟩] ∧
      restack.dependencies.Nodup ∧
      restack.dependencies.idxOf ⟨"label"⟩ < restack.dependencies.idxOf ⟨"panel"⟩ ∧
      square.mentions = [⟨"panel"⟩,⟨"panel"⟩] ∧
      square.needsOnly ⟨"panel"⟩ = true ∧
      square.needsOnly ⟨"label"⟩ = false ∧
      note.mentions = [⟨"label"⟩,⟨"panel"⟩,⟨"label"⟩] ∧
      ⟨"panel"⟩ ∈ note.dependencies := by
  intro restack square note
  obtain ⟨hnodup,-,horder,-,-,-,hwritten⟩ := dependencies_by_first_mention restack
  obtain ⟨-,-,-,honly,hunique,-,-⟩ := dependencies_by_first_mention square
  obtain ⟨-,hmem,-,-,-,hlisted,-⟩ := dependencies_by_first_mention note
  have hpanel : square.needsOnly ⟨"panel"⟩ = true := (honly ⟨"panel"⟩).mpr (by decide)
  have hlabel : square.needsOnly ⟨"label"⟩ ≠ true := fun h => absurd (hunique _ _ hpanel h) (by decide)
  exact ⟨nofun,(hwritten nofun).1,rfl,by decide,hnodup,(horder _ _).mpr (by decide),rfl,hpanel,
    Bool.eq_false_iff.mpr hlabel,hlisted _ _ rfl,(hmem _).mpr (by decide)⟩

end ObjectGraph.Action
