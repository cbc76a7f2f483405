import Mathlib.Algebra.GroupWithZero.Nat
import ObjectGraph.Proofs.Format.Canonical
import ObjectGraph.Proofs.Lists

/-! # Bytes that values take

Every value takes some bytes, at least as many as its parts with empty texts and lists and without what
may be absent. So a reader that accepts a value takes these bytes, and there are no more values than the
bytes hold.
-/
namespace ObjectGraph

namespace Format
variable {α : Type} {read : Reader α} {write : α → List UInt8} {lengths : α → List Nat}
variable {least n : Nat} {bytes : List UInt8}

/-! The least bytes that are written. -/

theorem le_length_writeText (text : String) : 8 ≤ (writeText text).length := by
  simp only [writeText,List.length_append,length_writeWord,lengthWidth]
  omega

theorem le_length_writeOption (write : α → List UInt8) (o : Option α) :
    1 ≤ (writeOption write o).length := by
  cases o with
  | none => exact Nat.le_refl 1
  | some a => exact Nat.le_add_left 1 _

theorem sum_le_length_writeList {weight : α → Nat} (h : ∀ a, weight a ≤ (write a).length)
    (list : List α) : 8 + (list.map weight).sum ≤ (writeList write list).length := by
  have hlist := sum_le_length_flatMap h list
  simp only [writeList,List.length_append,length_writeWord,lengthWidth]
  omega

theorem le_length_writeList (h : ∀ a, least ≤ (write a).length) (list : List α) :
    8 + list.length * least ≤ (writeList write list).length := by
  have hlist := sum_le_length_writeList h list
  rwa [List.map_const',List.sum_replicate_nat] at hlist

/-! What is read takes as many bytes as are written for it. -/

/-- What the reader accepts has at least so many bytes. -/
def Consumes (read : Reader α) (least : Nat) : Prop :=
  ∀ ⦃bytes a rest⦄, read bytes = .ok (a,rest) → rest.length + least ≤ bytes.length

theorem Retraces.consumes (h : Retraces read write lengths)
    (hwrite : ∀ a, least ≤ (write a).length) : Consumes read least := by
  intro bytes a rest hread
  have ha := hwrite a
  rw [(h hread).1,List.length_append]
  omega

theorem Consumes.mono {less : Nat} (h : Consumes read least) (hle : less ≤ least) :
    Consumes read less := by
  intro bytes a rest hread
  have hrest := h hread
  omega

theorem consumes_byte : Consumes readByte 1 := by
  intro bytes byte rest h
  exact Nat.le_of_eq (congrArg List.length (retrace_byte h)).symm

theorem consumes_word (width : Nat) : Consumes (readWord width) width := by
  intro bytes n rest h
  rw [(retrace_word h).1,List.length_append,length_writeWord]
  omega

theorem Consumes.many (h : Consumes read least) (n : Nat) :
    Consumes (readMany read n) (n * least) := by
  induction n with
  | zero =>
    intro bytes list rest hread
    obtain ⟨rfl,rfl⟩ := pure_eq_ok_iff.mp hread
    simp
  | succ n ih =>
    intro bytes list rest hread
    obtain ⟨a,others,middle,rfl,ha,hothers⟩ := readMany_succ_eq_ok_iff.mp hread
    have hfirst := h ha
    have hrest := ih hothers
    rw [Nat.succ_mul]
    omega

/-- Too many elements for the bytes are not found. -/
theorem Consumes.starved (h : Consumes read least) (hfew : bytes.length < n * least) :
    ∃ fault, readMany read n bytes = .error fault := by
  cases hread : readMany read n bytes with
  | error fault => exact ⟨fault,rfl⟩
  | ok result =>
    have hall := h.many n hread
    omega

end Format

open Format

/-! The least bytes of the parts of a document. -/

theorem Identifier.le_length_write (x : Identifier) : 8 ≤ x.write.length := le_length_writeText x.text

theorem Value.le_length_write (value : Value) : 12 ≤ value.write.length := by
  cases value with
  | literal text =>
    have htext := le_length_writeText text
    simp only [write,List.length_append,length_writeWord,indexWidth]
    omega
  | reference x =>
    have hx := x.le_length_write
    simp only [write,List.length_append,length_writeWord,indexWidth]
    omega

theorem Argument.le_length_write (argument : Argument) : 13 ≤ argument.write.length := by
  have hlabel := le_length_writeOption writeText argument.label
  have hvalue := argument.value.le_length_write
  rw [write,List.length_append]
  omega

theorem Anchor.le_length_write (anchor : Anchor) : 16 ≤ anchor.write.length := by
  have howner := anchor.owner.le_length_write
  have hproperty := le_length_writeText anchor.property
  rw [write,List.length_append]
  omega

namespace Action

/-- The arguments of a call. -/
def arguments : Action → List Argument
  | construct _ arguments => arguments
  | invoke _ _ arguments => arguments
  | _ => []

/-- The dependencies that are listed beside code written by hand. -/
def listed : Action → List Identifier
  | verbatim _ dependencies => dependencies
  | _ => []

theorem le_length_write (action : Action) :
    20 + action.arguments.length * 13 + action.listed.length * 8 ≤ action.write.length := by
  cases action with
  | construct className arguments =>
    have hname := le_length_writeText className
    have harguments := le_length_writeList Argument.le_length_write arguments
    simp only [write,List.length_append,length_writeWord,indexWidth,Action.arguments,listed,
      List.length_nil]
    omega
  | assign target key value =>
    have htarget := target.le_length_write
    have hkey := le_length_writeText key
    have hvalue := value.le_length_write
    simp only [write,List.length_append,length_writeWord,indexWidth,Action.arguments,listed,
      List.length_nil]
    omega
  | invoke target method arguments =>
    have htarget := target.le_length_write
    have hmethod := le_length_writeText method
    have harguments := le_length_writeList Argument.le_length_write arguments
    simp only [write,List.length_append,length_writeWord,indexWidth,Action.arguments,listed,
      List.length_nil]
    omega
  | attach parent child =>
    have hparent := parent.le_length_write
    have hchild := child.le_length_write
    simp only [write,List.length_append,length_writeWord,indexWidth,Action.arguments,listed,
      List.length_nil]
    omega
  | constrain first relation second multiplier constant =>
    have hfirst := first.le_length_write
    have hsecond := le_length_writeOption Anchor.write second
    have hmultiplier := le_length_writeOption Binary64.write multiplier
    have hconstant := le_length_writeOption Binary64.write constant
    simp only [write,Relation.write,writeChoice,List.length_append,length_writeWord,indexWidth,
      Action.arguments,listed,List.length_nil]
    omega
  | verbatim code dependencies =>
    have hcode := le_length_writeText code
    have hdependencies := le_length_writeList Identifier.le_length_write dependencies
    simp only [write,List.length_append,length_writeWord,indexWidth,Action.arguments,listed,
      List.length_nil]
    omega

end Action

theorem Statement.le_length_write (statement : Statement) :
    25 + statement.action.arguments.length * 13 + statement.action.listed.length * 8 ≤
      statement.write.length := by
  have hdeclares := le_length_writeOption Identifier.write statement.declares
  have haction := statement.action.le_length_write
  simp only [write,Phase.write,writeChoice,List.length_append,length_writeWord,indexWidth]
  omega

theorem Reference.le_length_write (reference : Reference) : 9 ≤ reference.write.length := by
  have hidentifier := reference.identifier.le_length_write
  simp only [write,writeFlag,List.length_append,List.length_singleton]
  omega

theorem Registry.le_length_writeEntry (e : Identifier × Registration) :
    24 ≤ (writeEntry e).length := by
  have hx := e.1.le_length_write
  have hclass := le_length_writeText e.2.className
  have hvariable := le_length_writeText e.2.variableName
  simp only [writeEntry,List.length_append]
  omega

theorem Registry.length_ofList_le (entries : List (Identifier × Registration)) :
    (ofList entries).entries.length ≤ entries.length := by
  rw [entries_ofList,(inOrder_perm _).length_eq]
  exact (lastEntries_sublist entries).length_le

theorem consumes_text : Consumes readText 8 := retraces_text.consumes le_length_writeText

theorem Identifier.consumes : Consumes Identifier.read 8 :=
  Identifier.retraces.consumes Identifier.le_length_write

theorem Identifier.consumes_option : Consumes (readOption Identifier.read) 1 :=
  Retraces.consumes (retraces_option Identifier.retraces) (le_length_writeOption _)

theorem Argument.consumes : Consumes Argument.read 13 :=
  Argument.retraces.consumes Argument.le_length_write

theorem Phase.consumes : Consumes Phase.read 4 :=
  Phase.retraces.consumes fun _ => Nat.le_of_eq (length_writeWord _ _).symm

theorem Statement.consumes : Consumes Statement.read 25 :=
  Statement.retraces.consumes fun statement => by
    have hstatement := statement.le_length_write
    omega

theorem Reference.consumes : Consumes Reference.read 9 :=
  Reference.retraces.consumes Reference.le_length_write

theorem Registry.consumes_entry : Consumes Registry.readEntry 24 :=
  Registry.retraces_entry.consumes Registry.le_length_writeEntry

namespace Document

/-- The bytes of a document without those of its texts and of what may be absent. -/
def leastBytes (document : Document) : Nat :=
  24 + (document.statements.map fun s =>
    25 + s.action.arguments.length * 13 + s.action.listed.length * 8).sum +
    document.references.length * 9 + document.registry.entries.length * 24

theorem leastBytes_le {bytes rest : List UInt8} {document : Document}
    (h : decode bytes = .ok (document,rest)) :
    document.leastBytes + rest.length ≤ bytes.length := by
  obtain ⟨entries,hbytes,hregistry,_⟩ := retraces h
  have hentries : document.registry.entries.length ≤ entries.length := by
    rw [hregistry]
    exact Registry.length_ofList_le entries
  have hmany := Nat.mul_le_mul_right 24 hentries
  have hstatements := sum_le_length_writeList Statement.le_length_write document.statements
  have hreferences := le_length_writeList Reference.le_length_write document.references
  have hregistered := le_length_writeList Registry.le_length_writeEntry entries
  rw [hbytes,encodeWith,front,leastBytes]
  simp only [List.length_append]
  omega

end Document

end ObjectGraph
