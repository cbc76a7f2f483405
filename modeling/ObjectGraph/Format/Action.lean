import ObjectGraph.Action.Basic
import ObjectGraph.Format.Reader

/-! # The binary form of actions

The parts of a value follow each other in the order in which its type names them. A value with
several cases starts with the index of its case.
-/
namespace ObjectGraph

open Format

def Identifier.write (x : Identifier) : List UInt8 := writeText x.text

def Identifier.read : Reader Identifier := Identifier.mk <$> readText

def Binary64.write (x : Binary64) : List UInt8 := writeWord 8 x.bits.toNat

def Binary64.read : Reader Binary64 := (fun n => ⟨UInt64.ofNat n⟩) <$> readWord 8

namespace Value

def write : Value → List UInt8
  | literal text => writeWord indexWidth 0 ++ writeText text
  | reference x => writeWord indexWidth 1 ++ x.write

def read : Reader Value := do
  match ← readWord indexWidth with
  | 0 => literal <$> readText
  | 1 => reference <$> Identifier.read
  | index => fail (.badIndex index 2)

end Value

namespace Argument

def write (argument : Argument) : List UInt8 :=
  writeOption writeText argument.label ++ argument.value.write

def read : Reader Argument := do
  let label ← readOption readText
  let value ← Value.read
  return ⟨label, value⟩

end Argument

namespace Anchor

def write (anchor : Anchor) : List UInt8 := anchor.owner.write ++ writeText anchor.property

def read : Reader Anchor := do
  let owner ← Identifier.read
  let property ← readText
  return ⟨owner, property⟩

end Anchor

def Relation.write (relation : Relation) : List UInt8 := writeChoice Relation.all relation

def Relation.read : Reader Relation := readChoice Relation.all

namespace Action

def write : Action → List UInt8
  | construct className arguments =>
    writeWord indexWidth 0 ++ writeText className ++ writeList Argument.write arguments
  | assign target key value =>
    writeWord indexWidth 1 ++ target.write ++ writeText key ++ value.write
  | invoke target method arguments =>
    writeWord indexWidth 2 ++ target.write ++ writeText method ++
      writeList Argument.write arguments
  | attach parent child => writeWord indexWidth 3 ++ parent.write ++ child.write
  | constrain first relation second multiplier constant =>
    writeWord indexWidth 4 ++ first.write ++ relation.write ++ writeOption Anchor.write second ++
      writeOption Binary64.write multiplier ++ writeOption Binary64.write constant
  | verbatim code dependencies =>
    writeWord indexWidth 5 ++ writeText code ++ writeList Identifier.write dependencies

def read : Reader Action := do
  match ← readWord indexWidth with
  | 0 =>
    let className ← readText
    let arguments ← readList Argument.read
    return construct className arguments
  | 1 =>
    let target ← Identifier.read
    let key ← readText
    let value ← Value.read
    return assign target key value
  | 2 =>
    let target ← Identifier.read
    let method ← readText
    let arguments ← readList Argument.read
    return invoke target method arguments
  | 3 =>
    let parent ← Identifier.read
    let child ← Identifier.read
    return attach parent child
  | 4 =>
    let first ← Anchor.read
    let relation ← Relation.read
    let second ← readOption Anchor.read
    let multiplier ← readOption Binary64.read
    let constant ← readOption Binary64.read
    return constrain first relation second multiplier constant
  | 5 =>
    let code ← readText
    let dependencies ← readList Identifier.read
    return verbatim code dependencies
  | index => fail (.badIndex index 6)

end Action

end ObjectGraph
