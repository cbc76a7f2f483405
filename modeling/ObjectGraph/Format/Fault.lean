import ObjectGraph.Text.Utf8.Basic

/-! # Faults of the binary form

What is wrong with bytes that hold no document. Reading stops at the first fault.
-/
namespace ObjectGraph.Format

inductive Fault where
  /-- The bytes end too early. -/
  | endOfInput
  /-- A text is not UTF-8. -/
  | badText (fault : Text.Utf8Fault)
  /-- A truth value is neither 0 nor 1. -/
  | badFlag (byte : UInt8)
  /-- The tag of an optional value is neither 0 nor 1. -/
  | badTag (byte : UInt8)
  /-- An index is not one of the first `count`. -/
  | badIndex (index count : Nat)
  deriving DecidableEq

end ObjectGraph.Format

namespace ObjectGraph

def Text.Utf8Fault.message : Text.Utf8Fault → String
  | invalid length index =>
    "invalid utf-8 sequence of " ++ length.repr ++ " bytes from index " ++ index.repr
  | incomplete index => "incomplete utf-8 byte sequence from index " ++ index.repr

/-- What a reader is told about a fault; an early end explains itself. -/
def Format.Fault.message? : Format.Fault → Option String
  | endOfInput => none
  | badText fault => some ("string is not valid utf8: " ++ fault.message)
  | badFlag byte =>
    some ("invalid u8 while decoding bool, expected 0 or 1, found " ++ byte.toNat.repr)
  | badTag byte => some ("tag for enum is not valid, found " ++ byte.toNat.repr)
  | badIndex index count =>
    some ("invalid value: integer `" ++ index.repr ++ "`, expected variant index 0 <= i < " ++
      count.repr)

end ObjectGraph
