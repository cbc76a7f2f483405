import ObjectGraph.Document.Basic
import ObjectGraph.Proofs.Lists

/-! # Equal documents

Documents are compared part by part, and their numbers by value. So a document is equal to itself as
long as no number of its constraints is a NaN.
-/
namespace ObjectGraph

/-- The numbers of a constraint. -/
def Action.numbers : Action → List Binary64
  | constrain _ _ _ multiplier constant => multiplier.toList ++ constant.toList
  | _ => []

theorem option_beq_self_iff {o : Option Binary64} :
    (o == o) = true ↔ ∀ x ∈ o.toList, x.isNaN = false := by
  cases o with
  | none => simp
  | some x => simp [Binary64.beq_self_eq]

theorem Action.beq_self_iff {action : Action} :
    (action == action) = true ↔ ∀ x ∈ action.numbers, x.isNaN = false := by
  change action.beq action = true ↔ _
  cases action with
  | constrain first relation second multiplier constant =>
    simp only [Action.beq,beq_self_eq_true,Bool.true_and,Bool.and_eq_true,option_beq_self_iff,
      numbers,List.forall_mem_append]
  | _ => simp [Action.beq,numbers]

theorem Statement.beq_self_iff {statement : Statement} :
    (statement == statement) = true ↔ ∀ x ∈ statement.action.numbers, x.isNaN = false := by
  change (statement.phase == statement.phase && statement.declares == statement.declares &&
    statement.action == statement.action) = true ↔ _
  rw [beq_self_eq_true,beq_self_eq_true,Bool.true_and,Bool.true_and,Action.beq_self_iff]

/-- Only a NaN keeps a document from being equal to itself. -/
theorem Document.beq_self_iff {document : Document} : (document == document) = true ↔
    ∀ s ∈ document.statements, ∀ x ∈ s.action.numbers, x.isNaN = false := by
  change (document.statements == document.statements && document.references == document.references &&
    document.registry == document.registry) = true ↔ _
  simp only [beq_self_eq_true,Bool.and_true,list_beq_self_iff,Statement.beq_self_iff]

end ObjectGraph
