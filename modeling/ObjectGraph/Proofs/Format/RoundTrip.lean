import Mathlib.Algebra.Group.Nat.Defs
import ObjectGraph.Format.Document
import ObjectGraph.Format.Lemmas
import ObjectGraph.Proofs.Equality
import ObjectGraph.Registry.Lemmas
import ObjectGraph.Schedule.Run

/-! # Documents read back

A reader that stands before the bytes of a value takes just these bytes and finds the value. This goes
from words and texts to options and lists, and from them part by part up to documents. The one
condition is on the lengths that stand in front of texts and lists: each has to fit its word.
-/
namespace ObjectGraph

namespace Format
variable {α β : Type} {read : Reader α} {write : α → List UInt8} {lengths : α → List Nat}

/-- Whether lengths fit the words that are written for them. -/
def Fit (lengths : List Nat) : Prop := ∀ n ∈ lengths, n < 256 ^ lengthWidth

instance (lengths : List Nat) : Decidable (Fit lengths) :=
  inferInstanceAs (Decidable (∀ n ∈ lengths, n < 256 ^ lengthWidth))

@[simp] theorem fit_append {ns ms : List Nat} : Fit (ns ++ ms) ↔ Fit ns ∧ Fit ms :=
  List.forall_mem_append

@[simp] theorem fit_cons {n : Nat} {ns : List Nat} :
    Fit (n :: ns) ↔ n < 256 ^ lengthWidth ∧ Fit ns := List.forall_mem_cons

theorem fit_flatMap {list : List α} : Fit (list.flatMap lengths) ↔ ∀ a ∈ list, Fit (lengths a) :=
  List.forall_mem_flatMap

/-- The lengths in a list: that of the list itself, and those in its members. -/
def listLengths (lengths : α → List Nat) (list : List α) : List Nat :=
  list.length :: list.flatMap lengths

def textLengths (text : String) : List Nat := [(Text.encodeUtf8 text).length]

/-- The bytes of `a`, whatever follows them, read back as `a`. -/
def Recovers (read : Reader α) (write : α → List UInt8) (a : α) : Prop :=
  ∀ rest, read (write a ++ rest) = .ok (a, rest)

theorem Recovers.bind {a : α} {next : α → Reader β} (h : Recovers read write a)
    (rest : List UInt8) : (read >>= next) (write a ++ rest) = next a rest := by
  simp only [Bind.bind,StateT.bind,Except.bind,h rest]

theorem Recovers.map {a : α} {f : α → β} (h : Recovers read write a) (rest : List UInt8) :
    (f <$> read) (write a ++ rest) = .ok (f a,rest) := by
  simp only [Functor.map,StateT.map,Bind.bind,Except.bind,h rest]
  rfl

theorem recovers_word {width n : Nat} (h : n < 256 ^ width) :
    Recovers (readWord width) (writeWord width) n := readWord_writeWord h

theorem recovers_text {text : String} (h : Fit (textLengths text)) :
    Recovers readText writeText text := by
  intro rest
  exact readText_writeText (h _ List.mem_cons_self) rest

theorem recovers_flag (flag : Bool) : Recovers readFlag writeFlag flag := by
  intro rest
  cases flag <;> rfl

theorem recovers_option {o : Option α} (h : ∀ a ∈ o.toList, Recovers read write a) :
    Recovers (readOption read) (writeOption write) o := by
  intro rest
  cases o with
  | none => rfl
  | some a =>
    exact (h a List.mem_cons_self).map rest

theorem recovers_list {list : List α} (hfit : Fit (listLengths lengths list))
    (h : ∀ a, Fit (lengths a) → Recovers read write a) :
    Recovers (readList read) (writeList write) list := by
  obtain ⟨hlength,hmembers⟩ := fit_cons.mp hfit
  intro rest
  unfold readList writeList
  rw [List.append_assoc,(recovers_word hlength).bind]
  exact readMany_flatMap (fun a ha => h a (fit_flatMap.mp hmembers a ha)) rest

theorem recovers_choice [DecidableEq α] {all : List α} {a : α} (ha : a ∈ all)
    (hall : all.length < 256 ^ indexWidth) : Recovers (readChoice all) (writeChoice all) a := by
  intro rest
  have hindex : all.idxOf a < all.length := List.idxOf_lt_length_of_mem ha
  unfold readChoice writeChoice
  rw [(recovers_word (Nat.lt_trans hindex hall)).bind,List.getElem?_eq_getElem hindex,
    List.getElem_idxOf hindex]
  rfl

end Format

open Format

/-! The lengths in a value, and the value read back if they fit. -/

namespace Identifier

def lengths (x : Identifier) : List Nat := textLengths x.text

theorem recovers {x : Identifier} (h : Fit x.lengths) : Recovers read write x := by
  intro rest
  exact (recovers_text h).map rest

end Identifier

theorem Binary64.recovers (x : Binary64) : Recovers read write x := by
  intro rest
  have hbits : x.bits.toNat < 256 ^ 8 := x.bits.toNat_lt
  refine ((recovers_word hbits).map rest).trans ?_
  rw [UInt64.ofNat_toNat]

namespace Value

def lengths : Value → List Nat
  | literal text => textLengths text
  | reference x => x.lengths

theorem recovers {value : Value} (h : Fit value.lengths) : Recovers read write value := by
  intro rest
  unfold read
  cases value with
  | literal text =>
    rw [write,List.append_assoc,(recovers_word (by decide)).bind]
    exact (recovers_text h).map rest
  | reference x =>
    rw [write,List.append_assoc,(recovers_word (by decide)).bind]
    exact (Identifier.recovers h).map rest

end Value

namespace Argument

def lengths (argument : Argument) : List Nat :=
  argument.label.toList.flatMap textLengths ++ argument.value.lengths

theorem recovers {argument : Argument} (h : Fit argument.lengths) :
    Recovers read write argument := by
  obtain ⟨hlabel,hvalue⟩ := fit_append.mp h
  intro rest
  unfold read write
  have hlabel : Recovers (readOption readText) (writeOption writeText) argument.label :=
    recovers_option fun text ht => recovers_text (fit_flatMap.mp hlabel text ht)
  rw [List.append_assoc,hlabel.bind,(Value.recovers hvalue).bind]
  rfl

end Argument

namespace Anchor

def lengths (anchor : Anchor) : List Nat := anchor.owner.lengths ++ textLengths anchor.property

theorem recovers {anchor : Anchor} (h : Fit anchor.lengths) : Recovers read write anchor := by
  obtain ⟨howner,hproperty⟩ := fit_append.mp h
  intro rest
  unfold read write
  rw [List.append_assoc,(Identifier.recovers howner).bind,
    (recovers_text hproperty).bind]
  rfl

end Anchor

theorem Relation.recovers (relation : Relation) : Recovers read write relation :=
  recovers_choice relation.mem_all (by decide)

namespace Action

def lengths : Action → List Nat
  | construct className arguments =>
    textLengths className ++ listLengths Argument.lengths arguments
  | assign target key value => target.lengths ++ textLengths key ++ value.lengths
  | invoke target method arguments =>
    target.lengths ++ textLengths method ++ listLengths Argument.lengths arguments
  | attach parent child => parent.lengths ++ child.lengths
  | constrain first _ second _ _ => first.lengths ++ second.toList.flatMap Anchor.lengths
  | verbatim code dependencies =>
    textLengths code ++ listLengths Identifier.lengths dependencies

theorem recovers {action : Action} (h : Fit action.lengths) : Recovers read write action := by
  intro rest
  cases action with
  | construct className arguments =>
    obtain ⟨hname,harguments⟩ := fit_append.mp h
    simp only [write,List.append_assoc]
    refine ((recovers_word (by decide)).bind _).trans ?_
    refine ((recovers_text hname).bind _).trans ?_
    exact (recovers_list harguments (fun _ => Argument.recovers)).bind rest
  | assign target key value =>
    simp only [lengths,fit_append] at h
    obtain ⟨⟨htarget,hkey⟩,hvalue⟩ := h
    simp only [write,List.append_assoc]
    refine ((recovers_word (by decide)).bind _).trans ?_
    refine ((Identifier.recovers htarget).bind _).trans ?_
    refine ((recovers_text hkey).bind _).trans ?_
    exact (Value.recovers hvalue).bind rest
  | invoke target method arguments =>
    simp only [lengths,fit_append] at h
    obtain ⟨⟨htarget,hmethod⟩,harguments⟩ := h
    simp only [write,List.append_assoc]
    refine ((recovers_word (by decide)).bind _).trans ?_
    refine ((Identifier.recovers htarget).bind _).trans ?_
    refine ((recovers_text hmethod).bind _).trans ?_
    exact (recovers_list harguments (fun _ => Argument.recovers)).bind rest
  | attach parent child =>
    obtain ⟨hparent,hchild⟩ := fit_append.mp h
    simp only [write,List.append_assoc]
    refine ((recovers_word (by decide)).bind _).trans ?_
    refine ((Identifier.recovers hparent).bind _).trans ?_
    exact (Identifier.recovers hchild).bind rest
  | constrain first relation second multiplier constant =>
    obtain ⟨hfirst,hsecond⟩ := fit_append.mp h
    have hanchor : Recovers (readOption Anchor.read) (writeOption Anchor.write) second :=
      recovers_option fun anchor hanchor => Anchor.recovers (fit_flatMap.mp hsecond anchor hanchor)
    have hnumber : ∀ o, Recovers (readOption Binary64.read) (writeOption Binary64.write) o :=
      fun o => recovers_option fun x _ => x.recovers
    simp only [write,List.append_assoc]
    refine ((recovers_word (by decide)).bind _).trans ?_
    refine ((Anchor.recovers hfirst).bind _).trans ?_
    refine (relation.recovers.bind _).trans ?_
    refine (hanchor.bind _).trans ?_
    refine ((hnumber multiplier).bind _).trans ?_
    exact (hnumber constant).bind rest
  | verbatim code dependencies =>
    obtain ⟨hcode,hdependencies⟩ := fit_append.mp h
    simp only [write,List.append_assoc]
    refine ((recovers_word (by decide)).bind _).trans ?_
    refine ((recovers_text hcode).bind _).trans ?_
    exact (recovers_list hdependencies (fun _ => Identifier.recovers)).bind rest

end Action

theorem Phase.recovers (phase : Phase) : Recovers read write phase :=
  recovers_choice phase.mem_all (by decide)

namespace Statement

def lengths (statement : Statement) : List Nat :=
  statement.declares.toList.flatMap Identifier.lengths ++ statement.action.lengths

theorem recovers {statement : Statement} (h : Fit statement.lengths) :
    Recovers read write statement := by
  obtain ⟨hdeclares,haction⟩ := fit_append.mp h
  intro rest
  unfold read write
  simp only [List.append_assoc]
  have hdeclares : Recovers (readOption Identifier.read) (writeOption Identifier.write)
      statement.declares :=
    recovers_option fun x hx => Identifier.recovers (fit_flatMap.mp hdeclares x hx)
  rw [statement.phase.recovers.bind,hdeclares.bind,(Action.recovers haction).bind]
  rfl

end Statement

namespace Reference

def lengths (reference : Reference) : List Nat := reference.identifier.lengths

theorem recovers {reference : Reference} (h : Fit reference.lengths) :
    Recovers read write reference := by
  intro rest
  unfold read write
  rw [List.append_assoc,(Identifier.recovers h).bind,(recovers_flag _).bind]
  rfl

end Reference

namespace Registry

def entryLengths (e : Identifier × Registration) : List Nat :=
  e.1.lengths ++ textLengths e.2.className ++ textLengths e.2.variableName

def lengths (registry : Registry) : List Nat := listLengths entryLengths registry.entries

theorem recovers_entry {e : Identifier × Registration} (h : Fit (entryLengths e)) :
    Recovers readEntry writeEntry e := by
  simp only [entryLengths,fit_append] at h
  obtain ⟨⟨hx,hclass⟩,hvariable⟩ := h
  intro rest
  unfold readEntry writeEntry
  simp only [List.append_assoc]
  rw [(Identifier.recovers hx).bind,(recovers_text hclass).bind,
    (recovers_text hvariable).bind]
  rfl

theorem recovers {registry : Registry} (h : Fit registry.lengths) :
    Recovers read write registry := by
  intro rest
  refine ((recovers_list h (fun _ => recovers_entry)).map rest).trans ?_
  rw [ofList_entries]

end Registry

namespace Document

/-- The lengths in front of the texts and the lists of a document. -/
def lengths (document : Document) : List Nat :=
  listLengths Statement.lengths document.statements ++
    listLengths Reference.lengths document.references ++ document.registry.lengths

variable {document : Document}

theorem recovers (h : Fit document.lengths) : Recovers read encode document := by
  simp only [lengths,fit_append] at h
  obtain ⟨⟨hstatements,hreferences⟩,hregistry⟩ := h
  intro rest
  unfold read encode
  simp only [List.append_assoc]
  rw [(recovers_list hstatements (fun _ => Statement.recovers)).bind,
    (recovers_list hreferences (fun _ => Reference.recovers)).bind,
    (Registry.recovers hregistry).bind]
  rfl

/-- Writings of documents differ if the documents do, also when more bytes follow. -/
theorem eq_of_encode_append {other : Document} {bytes rest : List UInt8}
    (h : Fit document.lengths) (ho : Fit other.lengths)
    (he : other.encode ++ bytes = document.encode ++ rest) : other = document ∧ bytes = rest := by
  have hread := recovers ho bytes
  rw [he,recovers h rest] at hread
  obtain ⟨rfl,rfl⟩ := Prod.mk.inj (Except.ok.inj hread)
  exact ⟨rfl,rfl⟩

/-- Whatever bytes follow a written document, it is read back with all its parts, down to the bits of
its numbers, and these bytes are left. So different documents are written differently, and nothing that
is generated changes on the way. Lengths only have to be below `2 ^ 64`. -/
theorem decode_encode (h : Fit document.lengths) (rest : List UInt8) :
    decode (document.encode ++ rest) = .ok (document,rest) ∧
      (∀ other, Fit other.lengths → other.encode = document.encode → other = document) ∧
      ∀ decoded left, decode (document.encode ++ rest) = .ok (decoded,left) →
        left = rest ∧ (∀ x, decoded.registry.find? x = document.registry.find? x) ∧
          (∀ policy, decoded.listing policy = document.listing policy) ∧
          (∀ phase, decoded.phaseCode phase = document.phaseCode phase) ∧
          ((decoded == document) = true ↔
            ∀ s ∈ document.statements, ∀ x ∈ s.action.numbers, x.isNaN = false) := by
  have hread : decode (document.encode ++ rest) = .ok (document,rest) := recovers h rest
  refine ⟨hread,?_,?_⟩
  · intro other ho he
    exact (eq_of_encode_append h ho (congrArg (· ++ rest) he)).1
  · intro decoded left hdecoded
    rw [hread] at hdecoded
    obtain ⟨rfl,rfl⟩ := Prod.mk.inj (Except.ok.inj hdecoded)
    exact ⟨rfl,fun _ => rfl,fun _ => rfl,fun _ => rfl,beq_self_iff⟩

/-- A document with an empty text, a null character, a negative zero and a NaN. -/
def odd : Document where
  statements := [
    .constructing ⟨""⟩ "View" [⟨some "",.reference ⟨"-été"⟩⟩,⟨none,.literal "\x00"⟩],
    .plain .constraints (.constrain ⟨⟨""⟩,"top"⟩ .greaterThanOrEqual (some ⟨⟨"-été"⟩,"top"⟩)
      (some ⟨0x8000000000000000⟩) (some ⟨0x7FF8000000000001⟩)),
    ⟨.subviews,some ⟨"a"⟩,.verbatim "" [⟨"a"⟩,⟨"a"⟩]⟩]
  references := [.required ⟨""⟩,.supplied ⟨"-été"⟩]
  registry := .ofList [(⟨"b"⟩,⟨"B",""⟩),(⟨"a"⟩,⟨"A","\x00"⟩),(⟨"b"⟩,⟨"","b"⟩)]

theorem decode_encode_odd : Fit odd.lengths ∧
    decode (odd.encode ++ [1,0]) = .ok (odd,[1,0]) ∧ (odd == odd) = false := by
  have hfit : Fit odd.lengths := by decide +kernel
  obtain ⟨hread,_,hdecoded⟩ := decode_encode hfit [1,0]
  obtain ⟨_,_,_,_,hequal⟩ := hdecoded odd [1,0] hread
  refine ⟨hfit,hread,Bool.eq_false_iff.mpr fun he => ?_⟩
  have hnan := hequal.mp he odd.statements[1] (List.getElem_mem _) ⟨0x7FF8000000000001⟩
    (by simp [odd,Statement.plain,Action.numbers])
  exact absurd hnan (by decide)

end Document

end ObjectGraph
