import ObjectGraph.Action.Code
import ObjectGraph.Action.Dependencies
import ObjectGraph.Action.Equality
import ObjectGraph.Phase

/-! # Statements

A statement is the unit that a schedule moves: an action in a phase, which may declare an
identifier. A declaration counts as one in the initialization phase only.
-/
namespace ObjectGraph

structure Statement where
  phase : Phase
  declares : Option Identifier
  action : Action

namespace Statement

def declaring (x : Identifier) (action : Action) : Statement := ⟨.initialization, some x, action⟩

def plain (phase : Phase) (action : Action) : Statement := ⟨phase, none, action⟩

def constructing (x : Identifier) (className : String) (arguments : List Argument) : Statement :=
  declaring x (.construct className arguments)

/-- Whether this is the statement that brings `x` into being. -/
def introduces (statement : Statement) (x : Identifier) : Bool :=
  statement.phase.mayDeclare && statement.declares == some x

/-- The identifiers that have to be declared before the code of the statement is valid. -/
def dependencies (statement : Statement) : List Identifier := statement.action.dependencies

def code (names : Identifier → String) (statement : Statement) : String :=
  statement.action.code names statement.declares

instance : BEq Statement where
  beq s t := s.phase == t.phase && s.declares == t.declares && s.action == t.action

theorem introduces_eq_true_iff {statement : Statement} {x : Identifier} :
    statement.introduces x = true ↔
      statement.phase = .initialization ∧ statement.declares = some x := by
  simp [introduces]

end Statement

end ObjectGraph
