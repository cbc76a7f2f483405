import ObjectGraph.Document.Basic

/-! # Assembly of documents

A document is assembled from the empty one by edits: statements and references go to the end of
their lists, and a name that is registered again replaces the earlier one.
-/
namespace ObjectGraph

/-- One change to a document under assembly. -/
inductive Edit where
  | append (statement : Statement)
  | appendAll (statements : List Statement)
  | refer (reference : Reference)
  /-- Registers an object and refers to it, as its identifier says. -/
  | enroll (x : Identifier) (registration : Registration)
  /-- Registers an object without a reference to it. -/
  | register (x : Identifier) (registration : Registration)

namespace Edit

def statements : Edit → List Statement
  | append statement => [statement]
  | appendAll statements => statements
  | _ => []

def references : Edit → List Reference
  | refer reference => [reference]
  | enroll x _ => [.classify x]
  | _ => []

def registrations : Edit → List (Identifier × Registration)
  | enroll x registration => [(x, registration)]
  | register x registration => [(x, registration)]
  | _ => []

end Edit

namespace Document

def edit (document : Document) : Edit → Document
  | .append statement => { document with statements := document.statements ++ [statement] }
  | .appendAll statements => { document with statements := document.statements ++ statements }
  | .refer reference => { document with references := document.references ++ [reference] }
  | .enroll x registration =>
    { document with
      references := document.references ++ [.classify x]
      registry := document.registry.insert x registration }
  | .register x registration =>
    { document with registry := document.registry.insert x registration }

/-- The document that a list of edits assembles. -/
def ofEdits (edits : List Edit) : Document := edits.foldl edit empty

@[simp] theorem statements_edit (document : Document) (e : Edit) :
    (document.edit e).statements = document.statements ++ e.statements := by
  cases e <;> simp [edit, Edit.statements]

@[simp] theorem references_edit (document : Document) (e : Edit) :
    (document.edit e).references = document.references ++ e.references := by
  cases e <;> simp [edit, Edit.references]

@[simp] theorem registry_edit (document : Document) (e : Edit) :
    (document.edit e).registry =
      e.registrations.foldl (fun registry r => registry.insert r.1 r.2) document.registry := by
  cases e <;> simp [edit, Edit.registrations]

end Document

end ObjectGraph
