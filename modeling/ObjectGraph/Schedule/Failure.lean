import ObjectGraph.Statement

/-! # Failures

A generation fails for one of two reasons: two statements declare a required identifier, or
statements are left over in the end. No listing comes with a failure.
-/
namespace ObjectGraph

/-- What a failure tells about a statement that was left over. -/
structure Leftover where
  phase : Phase
  declares : Option Identifier
  dependencies : List Identifier
  deriving DecidableEq

/-- Why a document has no listing. -/
inductive Failure where
  /-- Several statements declare the same required identifier. -/
  | duplicate (identifier : Identifier) (count : Nat)
  /-- Statements were left over, the dropped ones first. -/
  | unresolved (remaining : List Leftover)
  deriving DecidableEq

def Identifier.quoted (x : Identifier) : String := "`" ++ x.text ++ "`"

namespace Leftover

def ofStatement (statement : Statement) : Leftover :=
  ⟨statement.phase, statement.declares, statement.dependencies⟩

/-- A statement that was left over, with what it declares and what it waits for. -/
def describe (entry : Leftover) : String :=
  entry.phase.name ++ " statement" ++
    entry.declares.elim "" (fun x => " declaring " ++ x.quoted) ++
    if entry.dependencies.isEmpty then ""
    else " (depends on " ++ ", ".intercalate (entry.dependencies.map (·.quoted)) ++ ")"

end Leftover

namespace Failure

def message : Failure → String
  | duplicate x count =>
    x.quoted ++ " is declared by " ++ count.repr ++ " statements, expected exactly one"
  | unresolved remaining =>
    remaining.length.repr ++ " statement(s) could not be scheduled: " ++
      "; ".intercalate (remaining.map (·.describe))

end Failure

end ObjectGraph
