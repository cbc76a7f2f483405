import ObjectGraph.Reference
import ObjectGraph.Registry.Basic
import ObjectGraph.Statement

/-! # Documents

A document holds the statements of an object graph in the order in which its source was traversed,
the references that say which objects it needs, and the registry that names their variables.
-/
namespace ObjectGraph

structure Document where
  statements : List Statement
  references : List Reference
  registry : Registry

namespace Document

def empty : Document := ⟨[], [], .empty⟩

/-- The identifiers that the document has to declare itself, in the order of their references. -/
def required (document : Document) : List Identifier :=
  (document.references.filter (!·.isSupplied)).map (·.identifier)

/-- The identifiers that the surroundings supply, in the order of their references. -/
def supplied (document : Document) : List Identifier :=
  (document.references.filter (·.isSupplied)).map (·.identifier)

/-- The registered variable of an identifier, or else its own text. -/
def nameOf (document : Document) (x : Identifier) : String :=
  (document.registry.find? x).elim x.text (·.variableName)

def code (document : Document) (statement : Statement) : String :=
  statement.code document.nameOf

/-- The code of the statements of one phase as they stand in the document, without a schedule. -/
def phaseCode (document : Document) (phase : Phase) : List String :=
  (document.statements.filter (·.phase == phase)).map document.code

/-- Documents are equal part by part, their numbers by value. -/
instance : BEq Document where
  beq d e :=
    d.statements == e.statements && d.references == e.references && d.registry == e.registry

end Document

end ObjectGraph
