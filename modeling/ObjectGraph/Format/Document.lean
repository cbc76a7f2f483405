import ObjectGraph.Document.Basic
import ObjectGraph.Format.Action

/-! # The binary form of documents

A document is its statements, its references and the entries of its registry. Entries are written in
the order of their identifiers and read in any order; a later entry of an identifier replaces an
earlier one. `Document.decode` leaves the bytes after the document unread.
-/
namespace ObjectGraph

open Format

def Phase.write (phase : Phase) : List UInt8 := writeChoice Phase.all phase

def Phase.read : Reader Phase := readChoice Phase.all

namespace Statement

def write (statement : Statement) : List UInt8 :=
  statement.phase.write ++ writeOption Identifier.write statement.declares ++
    statement.action.write

def read : Reader Statement := do
  let phase ← Phase.read
  let declares ← readOption Identifier.read
  let action ← Action.read
  return ⟨phase, declares, action⟩

end Statement

namespace Reference

def write (reference : Reference) : List UInt8 :=
  reference.identifier.write ++ writeFlag reference.isSupplied

def read : Reader Reference := do
  let identifier ← Identifier.read
  let isSupplied ← readFlag
  return ⟨identifier, isSupplied⟩

end Reference

namespace Registry

def writeEntry (e : Identifier × Registration) : List UInt8 :=
  e.1.write ++ writeText e.2.className ++ writeText e.2.variableName

def readEntry : Reader (Identifier × Registration) := do
  let x ← Identifier.read
  let className ← readText
  let variableName ← readText
  return (x, ⟨className, variableName⟩)

def write (registry : Registry) : List UInt8 := writeList writeEntry registry.entries

def read : Reader Registry := ofList <$> readList readEntry

end Registry

namespace Document

def encode (document : Document) : List UInt8 :=
  writeList Statement.write document.statements ++
    writeList Reference.write document.references ++ document.registry.write

def read : Reader Document := do
  let statements ← readList Statement.read
  let references ← readList Reference.read
  let registry ← Registry.read
  return ⟨statements, references, registry⟩

/-- The document at the front of the bytes, with the bytes after it. -/
def decode (bytes : List UInt8) : Except Fault (Document × List UInt8) := read.run bytes

end Document

end ObjectGraph
