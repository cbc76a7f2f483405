import ObjectGraph.Action.Basic
import ObjectGraph.Numeral.Positional

/-! # Code of actions

The code of an action, given the variable name of every identifier and the identifier that the
statement declares. A construction that declares nothing binds its object to `_`. A constraint
without a second anchor is against its constant, zero if there is none, and has no multiplier.
-/
namespace ObjectGraph

variable (names : Identifier → String)

def Value.code : Value → String
  | literal text => text
  | reference x => names x

def Argument.code (argument : Argument) : String :=
  match argument.label with
  | none => argument.value.code names
  | some label => label ++ ": " ++ argument.value.code names

def Argument.listCode (arguments : List Argument) : String :=
  "(" ++ ", ".intercalate (arguments.map (Argument.code names)) ++ ")"

def Anchor.code (anchor : Anchor) : String :=
  names anchor.owner ++ "." ++ anchor.property

namespace Action

/-- A further argument of a constraint, if the constraint has it. -/
def optionCode (label : String) : Option Binary64 → String
  | none => ""
  | some x => ", " ++ label ++ ": " ++ x.text

def boundCode (relation : Relation) (second : Option Anchor)
    (multiplier constant : Option Binary64) : String :=
  match second with
  | none => relation.labelForConstant ++ ": " ++ (constant.getD Binary64.zero).text
  | some anchor =>
    relation.labelForAnchor ++ ": " ++ anchor.code names ++
      optionCode "multiplier" multiplier ++ optionCode "constant" constant

/-- The code of an action in a statement that declares `declared`. -/
def code (declared : Option Identifier) : Action → String
  | construct className arguments =>
    "let " ++ declared.elim "_" names ++ " = " ++ className ++ Argument.listCode names arguments
  | assign target key value => names target ++ "." ++ key ++ " = " ++ value.code names
  | invoke target method arguments =>
    names target ++ "." ++ method ++ Argument.listCode names arguments
  | attach parent child => names parent ++ ".addSubview(" ++ names child ++ ")"
  | constrain first relation second multiplier constant =>
    first.code names ++ ".constraint(" ++
      boundCode names relation second multiplier constant ++ ").isActive = true"
  | verbatim code _ => code

end Action

end ObjectGraph
