import ObjectGraph.Format.Fault

/-! # Readers and writers

A reader takes a value off the front of a list of bytes and leaves the rest, or stops at a fault.
Beside every reader stands the writer of the same values. Words are written lowest byte first; texts
and lists carry their length in front, as a word of eight bytes.
-/
namespace ObjectGraph.Format

/-- Reads a value from the front of the bytes. -/
abbrev Reader := StateT (List UInt8) (Except Fault)

def fail {α : Type} (fault : Fault) : Reader α := fun _ => .error fault

def readByte : Reader UInt8
  | [] => .error .endOfInput
  | byte :: rest => .ok (byte, rest)

def readBytes : Nat → Reader (List UInt8)
  | 0 => pure []
  | n + 1 => do
    let byte ← readByte
    let bytes ← readBytes n
    return byte :: bytes

/-- The lowest `width` bytes of a number, lowest first. -/
def writeWord : Nat → Nat → List UInt8
  | 0, _ => []
  | width + 1, n => UInt8.ofNat n :: writeWord width (n / 256)

def readWord : Nat → Reader Nat
  | 0 => pure 0
  | width + 1 => do
    let low ← readByte
    let high ← readWord width
    return low.toNat + 256 * high

def lengthWidth : Nat := 8

/-- The width of an index into the cases of a type. -/
def indexWidth : Nat := 4

def writeFlag (flag : Bool) : List UInt8 := [if flag then 1 else 0]

def readFlag : Reader Bool := do
  let byte ← readByte
  if byte = 0 then return false
  else if byte = 1 then return true
  else fail (.badFlag byte)

def writeText (text : String) : List UInt8 :=
  let bytes := Text.encodeUtf8 text
  writeWord lengthWidth bytes.length ++ bytes

/-- Reads a text. The bytes have to be there before they are decoded. -/
def readText : Reader String := do
  let length ← readWord lengthWidth
  let bytes ← readBytes length
  match Text.decodeUtf8 bytes with
  | .ok text => return text
  | .error fault => fail (.badText fault)

section Containers
variable {α : Type}

def writeOption (write : α → List UInt8) : Option α → List UInt8
  | none => [0]
  | some a => 1 :: write a

def readOption (read : Reader α) : Reader (Option α) := do
  let tag ← readByte
  if tag = 0 then return none
  else if tag = 1 then some <$> read
  else fail (.badTag tag)

/-- Reads as many values as are asked for, or up to the first fault. -/
def readMany (read : Reader α) : Nat → Reader (List α)
  | 0 => pure []
  | n + 1 => do
    let a ← read
    let rest ← readMany read n
    return a :: rest

def writeList (write : α → List UInt8) (list : List α) : List UInt8 :=
  writeWord lengthWidth list.length ++ list.flatMap write

def readList (read : Reader α) : Reader (List α) := do
  let count ← readWord lengthWidth
  readMany read count

/-- The index of a value in the list of all values of its type. -/
def writeChoice [DecidableEq α] (all : List α) (a : α) : List UInt8 :=
  writeWord indexWidth (all.idxOf a)

def readChoice (all : List α) : Reader α := do
  let index ← readWord indexWidth
  match all[index]? with
  | some a => return a
  | none => fail (.badIndex index all.length)

end Containers

end ObjectGraph.Format
