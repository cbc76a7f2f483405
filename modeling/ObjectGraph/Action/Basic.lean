import ObjectGraph.Identifier.Basic
import ObjectGraph.Numeral.Binary64

/-! # Actions

An action is what the code of one statement does: it constructs an object, sets a property, calls a
method, attaches a subview, installs a constraint, or stands for code written by hand. Objects are
named by their identifiers; variable names come in when its code is written.
-/
namespace ObjectGraph

/-- What stands on the right of an assignment or as an argument of a call. -/
inductive Value where
  /-- Source text, emitted as it is. -/
  | literal (text : String)
  /-- Another object, emitted as its variable. -/
  | reference (identifier : Identifier)
  deriving DecidableEq

structure Argument where
  label : Option String
  value : Value
  deriving DecidableEq

structure Anchor where
  owner : Identifier
  property : String
  deriving DecidableEq

/-- How the two sides of a constraint compare. -/
inductive Relation where
  | equal
  | lessThanOrEqual
  | greaterThanOrEqual
  deriving DecidableEq

namespace Relation

def all : List Relation := [equal, lessThanOrEqual, greaterThanOrEqual]

/-- Constraints compare for equality where nothing else is said. -/
instance : Inhabited Relation := ⟨equal⟩

/-- The label of an argument that is another anchor. -/
def labelForAnchor : Relation → String
  | equal => "equalTo"
  | lessThanOrEqual => "lessThanOrEqualTo"
  | greaterThanOrEqual => "greaterThanOrEqualTo"

/-- The label of an argument that is a constant. -/
def labelForConstant : Relation → String
  | equal => "equalToConstant"
  | lessThanOrEqual => "lessThanOrEqualToConstant"
  | greaterThanOrEqual => "greaterThanOrEqualToConstant"

theorem mem_all (relation : Relation) : relation ∈ all := by
  cases relation <;> simp [all]

end Relation

inductive Action where
  /-- Binds the declared object to a new instance of a class. -/
  | construct (className : String) (arguments : List Argument)
  | assign (target : Identifier) (key : String) (value : Value)
  | invoke (target : Identifier) (method : String) (arguments : List Argument)
  | attach (parent child : Identifier)
  /-- Installs a constraint between two anchors, or between an anchor and a constant. -/
  | constrain (first : Anchor) (relation : Relation) (second : Option Anchor)
      (multiplier constant : Option Binary64)
  /-- Code written by hand, with the identifiers it depends on. -/
  | verbatim (code : String) (dependencies : List Identifier)

end ObjectGraph
