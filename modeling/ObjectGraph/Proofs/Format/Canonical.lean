import Mathlib.Data.List.Flatten
import ObjectGraph.Proofs.Format.RoundTrip
import ObjectGraph.Proofs.Registry
import ObjectGraph.Proofs.Text.Canonical

/-! # Accepted bytes written again

What a reader accepts is what would be written for the value that it finds. The registry is the one
exception: its entries are accepted in any order and with repetitions, and written in order, the last one
of each identifier. So bytes and document say the same but for these entries.
-/
namespace ObjectGraph

namespace Format
variable {α β : Type} {read : Reader α} {write : α → List UInt8} {lengths : α → List Nat}
variable {bytes rest : List UInt8}

/-- Accepted bytes are those that are written for the accepted value, and its lengths fit. -/
def Retraces (read : Reader α) (write : α → List UInt8) (lengths : α → List Nat) : Prop :=
  ∀ {bytes a rest}, read bytes = .ok (a,rest) → bytes = write a ++ rest ∧ Fit (lengths a)

theorem fit_nil : Fit [] := fun _ hn => nomatch hn

theorem retrace_byte {byte : UInt8} (h : readByte bytes = .ok (byte,rest)) :
    bytes = byte :: rest := by
  cases bytes with
  | nil => cases h
  | cons b bytes =>
    obtain ⟨rfl,rfl⟩ := Prod.mk.inj (Except.ok.inj h)
    rfl

theorem retrace_bytes {n : Nat} {taken : List UInt8} (h : readBytes n bytes = .ok (taken,rest)) :
    bytes = taken ++ rest ∧ taken.length = n := by
  induction n generalizing bytes taken with
  | zero =>
    obtain ⟨rfl,rfl⟩ := pure_eq_ok_iff.mp h
    exact ⟨rfl,rfl⟩
  | succ n ih =>
    obtain ⟨byte,middle,hbyte,h⟩ := bind_eq_ok_iff.mp h
    obtain ⟨more,back,hmore,h⟩ := bind_eq_ok_iff.mp h
    obtain ⟨rfl,rfl⟩ := pure_eq_ok_iff.mp h
    obtain ⟨rfl,rfl⟩ := ih hmore
    exact ⟨retrace_byte hbyte,rfl⟩

theorem retrace_word {width n : Nat} (h : readWord width bytes = .ok (n,rest)) :
    bytes = writeWord width n ++ rest ∧ n < 256 ^ width := by
  induction width generalizing bytes n with
  | zero =>
    obtain ⟨rfl,rfl⟩ := pure_eq_ok_iff.mp h
    exact ⟨rfl,by decide⟩
  | succ width ih =>
    obtain ⟨low,middle,hlow,h⟩ := bind_eq_ok_iff.mp h
    obtain ⟨high,back,hhigh,h⟩ := bind_eq_ok_iff.mp h
    obtain ⟨rfl,rfl⟩ := pure_eq_ok_iff.mp h
    obtain ⟨rfl,hlt⟩ := ih hhigh
    have hbyte := low.toNat_lt
    have hdigit : UInt8.ofNat (low.toNat + 256 * high) = low := by
      apply UInt8.toNat_inj.mp
      rw [UInt8.toNat_ofNat']
      omega
    have hrest : (low.toNat + 256 * high) / 256 = high := by omega
    refine ⟨?_,?_⟩
    · rw [retrace_byte hlow,writeWord,hdigit,hrest]
      rfl
    · rw [Nat.pow_succ]
      omega

theorem retraces_text : Retraces readText writeText textLengths := by
  intro bytes text rest h
  obtain ⟨length,middle,hlength,htail⟩ := bind_eq_ok_iff.mp h
  obtain ⟨taken,back,htaken,hdecoded⟩ := bind_eq_ok_iff.mp htail
  obtain ⟨hbytes,hlt⟩ := retrace_word hlength
  obtain ⟨hmiddle,rfl⟩ := retrace_bytes htaken
  cases hdecode : Text.decodeUtf8 taken with
  | error fault => simp only [hdecode] at hdecoded; cases hdecoded
  | ok decoded =>
    simp only [hdecode] at hdecoded
    obtain ⟨rfl,rfl⟩ := pure_eq_ok_iff.mp hdecoded
    have hencode := Text.eq_encodeUtf8_of_decodeUtf8 hdecode
    rw [hencode] at hlt hbytes hmiddle
    refine ⟨?_,List.forall_mem_singleton.mpr hlt⟩
    rw [hbytes,hmiddle,writeText,List.append_assoc]

theorem retraces_flag : Retraces readFlag writeFlag fun _ => [] := by
  intro bytes flag rest h
  obtain ⟨byte,middle,hbyte,h⟩ := bind_eq_ok_iff.mp h
  rw [retrace_byte hbyte]
  split at h
  · next hzero =>
    obtain ⟨rfl,rfl⟩ := pure_eq_ok_iff.mp h
    exact ⟨congrArg (· :: middle) hzero,fit_nil⟩
  split at h
  · next hone =>
    obtain ⟨rfl,rfl⟩ := pure_eq_ok_iff.mp h
    exact ⟨congrArg (· :: middle) hone,fit_nil⟩
  · cases h

theorem retraces_option (h : Retraces read write lengths) :
    Retraces (readOption read) (writeOption write) fun o => o.toList.flatMap lengths := by
  intro bytes o rest hread
  obtain ⟨tag,middle,htag,hvalue⟩ := bind_eq_ok_iff.mp hread
  rw [retrace_byte htag]
  split at hvalue
  · next hzero =>
    obtain ⟨rfl,rfl⟩ := pure_eq_ok_iff.mp hvalue
    exact ⟨congrArg (· :: middle) hzero,fit_nil⟩
  split at hvalue
  · next hone =>
    obtain ⟨a,ha,rfl⟩ := map_eq_ok_iff.mp hvalue
    obtain ⟨hmiddle,hfit⟩ := h ha
    refine ⟨?_,fit_flatMap.mpr (List.forall_mem_singleton.mpr hfit)⟩
    rw [hmiddle,hone]
    rfl
  · cases hvalue

theorem retraces_many (h : Retraces read write lengths) {count : Nat} {list : List α}
    (hread : readMany read count bytes = .ok (list,rest)) :
    list.length = count ∧ bytes = list.flatMap write ++ rest ∧ Fit (list.flatMap lengths) := by
  induction count generalizing bytes list with
  | zero =>
    obtain ⟨rfl,rfl⟩ := pure_eq_ok_iff.mp hread
    exact ⟨rfl,rfl,fit_nil⟩
  | succ count ih =>
    obtain ⟨a,others,middle,rfl,ha,hothers⟩ := readMany_succ_eq_ok_iff.mp hread
    obtain ⟨hbytes,hfit⟩ := h ha
    obtain ⟨hlength,hmiddle,hrest⟩ := ih hothers
    refine ⟨congrArg Nat.succ hlength,?_,?_⟩
    · rw [hbytes,hmiddle,List.flatMap_cons,List.append_assoc]
    · rw [List.flatMap_cons]
      exact fit_append.mpr ⟨hfit,hrest⟩

theorem retraces_list (h : Retraces read write lengths) :
    Retraces (readList read) (writeList write) (listLengths lengths) := by
  intro bytes list rest hread
  obtain ⟨count,middle,hcount,hmany⟩ := bind_eq_ok_iff.mp hread
  obtain ⟨hbytes,hlt⟩ := retrace_word hcount
  obtain ⟨rfl,hmiddle,hfit⟩ := retraces_many h hmany
  refine ⟨?_,?_⟩
  · rw [hbytes,hmiddle,writeList,List.append_assoc]
  · exact fit_cons.mpr ⟨hlt,hfit⟩

/-- In a list of distinct cases an index stands for one case only. -/
theorem retraces_choice [DecidableEq α] {all : List α} (hall : all.Nodup) :
    Retraces (readChoice all) (writeChoice all) fun _ => [] := by
  intro bytes a rest h
  obtain ⟨index,middle,hindex,hchosen⟩ := bind_eq_ok_iff.mp h
  obtain ⟨hbytes,_⟩ := retrace_word hindex
  cases hb : all[index]? with
  | none => simp only [hb] at hchosen; cases hchosen
  | some b =>
    simp only [hb] at hchosen
    obtain ⟨rfl,rfl⟩ := pure_eq_ok_iff.mp hchosen
    obtain ⟨hlt,rfl⟩ := List.getElem?_eq_some_iff.mp hb
    exact ⟨by rw [hbytes,writeChoice,hall.idxOf_getElem],fit_nil⟩

end Format

open Format

theorem Identifier.retraces : Retraces read write lengths := by
  intro bytes x rest h
  obtain ⟨text,htext,rfl⟩ := map_eq_ok_iff.mp h
  exact retraces_text htext

theorem Binary64.retraces : Retraces read write fun _ => [] := by
  intro bytes x rest h
  obtain ⟨n,hn,rfl⟩ := map_eq_ok_iff.mp h
  obtain ⟨hbytes,hlt⟩ := retrace_word hn
  exact ⟨by rw [hbytes,write,UInt64.toNat_ofNat_of_lt' hlt],fit_nil⟩

theorem Value.retraces : Retraces read write lengths := by
  intro bytes value rest h
  obtain ⟨index,middle,hindex,hcase⟩ := bind_eq_ok_iff.mp h
  obtain ⟨hbytes,_⟩ := retrace_word hindex
  split at hcase
  · obtain ⟨text,htext,rfl⟩ := map_eq_ok_iff.mp hcase
    obtain ⟨hmiddle,hfit⟩ := retraces_text htext
    exact ⟨by rw [hbytes,hmiddle,write,List.append_assoc],hfit⟩
  · obtain ⟨x,hx,rfl⟩ := map_eq_ok_iff.mp hcase
    obtain ⟨hmiddle,hfit⟩ := Identifier.retraces hx
    exact ⟨by rw [hbytes,hmiddle,write,List.append_assoc],hfit⟩
  · cases hcase

theorem Argument.retraces : Retraces read write lengths := by
  intro bytes argument rest h
  obtain ⟨label,middle,hlabel,htail⟩ := bind_eq_ok_iff.mp h
  obtain ⟨value,back,hvalue,hargument⟩ := bind_eq_ok_iff.mp htail
  obtain ⟨rfl,rfl⟩ := pure_eq_ok_iff.mp hargument
  obtain ⟨hbytes,hlabel⟩ := retraces_option retraces_text hlabel
  obtain ⟨hmiddle,hvalue⟩ := Value.retraces hvalue
  exact ⟨by rw [hbytes,hmiddle,write,List.append_assoc],fit_append.mpr ⟨hlabel,hvalue⟩⟩

theorem Anchor.retraces : Retraces read write lengths := by
  intro bytes anchor rest h
  obtain ⟨owner,middle,howner,htail⟩ := bind_eq_ok_iff.mp h
  obtain ⟨property,back,hproperty,hanchor⟩ := bind_eq_ok_iff.mp htail
  obtain ⟨rfl,rfl⟩ := pure_eq_ok_iff.mp hanchor
  obtain ⟨hbytes,howner⟩ := Identifier.retraces howner
  obtain ⟨hmiddle,hproperty⟩ := retraces_text hproperty
  exact ⟨by rw [hbytes,hmiddle,write,List.append_assoc],fit_append.mpr ⟨howner,hproperty⟩⟩

theorem Relation.retraces : Retraces read write fun _ => [] := retraces_choice (by decide)

/-- No bytes of an action can be written in another way: what its cases hold is retraced part by part,
and the index in front of it is that of its case. -/
theorem Action.retraces : Retraces read write lengths := by
  intro bytes action rest h
  obtain ⟨index,middle,hindex,hcase⟩ := bind_eq_ok_iff.mp h
  obtain ⟨hbytes,_⟩ := retrace_word hindex
  split at hcase
  · obtain ⟨className,_,hname,hcase⟩ := bind_eq_ok_iff.mp hcase
    obtain ⟨arguments,_,harguments,hcase⟩ := bind_eq_ok_iff.mp hcase
    obtain ⟨rfl,rfl⟩ := pure_eq_ok_iff.mp hcase
    obtain ⟨rfl,hnameFit⟩ := retraces_text hname
    obtain ⟨rfl,hargumentsFit⟩ := retraces_list Argument.retraces harguments
    exact ⟨by simp only [hbytes,write,List.append_assoc],fit_append.mpr ⟨hnameFit,hargumentsFit⟩⟩
  · obtain ⟨target,_,htarget,hcase⟩ := bind_eq_ok_iff.mp hcase
    obtain ⟨key,_,hkey,hcase⟩ := bind_eq_ok_iff.mp hcase
    obtain ⟨value,_,hvalue,hcase⟩ := bind_eq_ok_iff.mp hcase
    obtain ⟨rfl,rfl⟩ := pure_eq_ok_iff.mp hcase
    obtain ⟨rfl,htargetFit⟩ := Identifier.retraces htarget
    obtain ⟨rfl,hkeyFit⟩ := retraces_text hkey
    obtain ⟨rfl,hvalueFit⟩ := Value.retraces hvalue
    refine ⟨by simp only [hbytes,write,List.append_assoc],?_⟩
    simp only [lengths,fit_append]
    exact ⟨⟨htargetFit,hkeyFit⟩,hvalueFit⟩
  · obtain ⟨target,_,htarget,hcase⟩ := bind_eq_ok_iff.mp hcase
    obtain ⟨method,_,hmethod,hcase⟩ := bind_eq_ok_iff.mp hcase
    obtain ⟨arguments,_,harguments,hcase⟩ := bind_eq_ok_iff.mp hcase
    obtain ⟨rfl,rfl⟩ := pure_eq_ok_iff.mp hcase
    obtain ⟨rfl,htargetFit⟩ := Identifier.retraces htarget
    obtain ⟨rfl,hmethodFit⟩ := retraces_text hmethod
    obtain ⟨rfl,hargumentsFit⟩ := retraces_list Argument.retraces harguments
    refine ⟨by simp only [hbytes,write,List.append_assoc],?_⟩
    simp only [lengths,fit_append]
    exact ⟨⟨htargetFit,hmethodFit⟩,hargumentsFit⟩
  · obtain ⟨parent,_,hparent,hcase⟩ := bind_eq_ok_iff.mp hcase
    obtain ⟨child,_,hchild,hcase⟩ := bind_eq_ok_iff.mp hcase
    obtain ⟨rfl,rfl⟩ := pure_eq_ok_iff.mp hcase
    obtain ⟨rfl,hparentFit⟩ := Identifier.retraces hparent
    obtain ⟨rfl,hchildFit⟩ := Identifier.retraces hchild
    exact ⟨by simp only [hbytes,write,List.append_assoc],fit_append.mpr ⟨hparentFit,hchildFit⟩⟩
  · obtain ⟨first,_,hfirst,hcase⟩ := bind_eq_ok_iff.mp hcase
    obtain ⟨relation,_,hrelation,hcase⟩ := bind_eq_ok_iff.mp hcase
    obtain ⟨second,_,hsecond,hcase⟩ := bind_eq_ok_iff.mp hcase
    obtain ⟨multiplier,_,hmultiplier,hcase⟩ := bind_eq_ok_iff.mp hcase
    obtain ⟨constant,_,hconstant,hcase⟩ := bind_eq_ok_iff.mp hcase
    obtain ⟨rfl,rfl⟩ := pure_eq_ok_iff.mp hcase
    obtain ⟨rfl,hfirstFit⟩ := Anchor.retraces hfirst
    obtain ⟨rfl,_⟩ := Relation.retraces hrelation
    obtain ⟨rfl,hsecondFit⟩ := retraces_option Anchor.retraces hsecond
    obtain ⟨rfl,_⟩ := retraces_option Binary64.retraces hmultiplier
    obtain ⟨rfl,_⟩ := retraces_option Binary64.retraces hconstant
    exact ⟨by simp only [hbytes,write,List.append_assoc],fit_append.mpr ⟨hfirstFit,hsecondFit⟩⟩
  · obtain ⟨code,_,hcode,hcase⟩ := bind_eq_ok_iff.mp hcase
    obtain ⟨dependencies,_,hdependencies,hcase⟩ := bind_eq_ok_iff.mp hcase
    obtain ⟨rfl,rfl⟩ := pure_eq_ok_iff.mp hcase
    obtain ⟨rfl,hcodeFit⟩ := retraces_text hcode
    obtain ⟨rfl,hdependenciesFit⟩ := retraces_list Identifier.retraces hdependencies
    exact ⟨by simp only [hbytes,write,List.append_assoc],fit_append.mpr ⟨hcodeFit,hdependenciesFit⟩⟩
  · cases hcase

theorem Phase.retraces : Retraces read write fun _ => [] := retraces_choice (by decide)

theorem Statement.retraces : Retraces read write lengths := by
  intro bytes statement rest h
  obtain ⟨phase,_,hphase,htail⟩ := bind_eq_ok_iff.mp h
  obtain ⟨declares,_,hdeclares,htail⟩ := bind_eq_ok_iff.mp htail
  obtain ⟨action,_,haction,hstatement⟩ := bind_eq_ok_iff.mp htail
  obtain ⟨rfl,rfl⟩ := pure_eq_ok_iff.mp hstatement
  obtain ⟨hbytes,_⟩ := Phase.retraces hphase
  obtain ⟨rfl,hdeclaresFit⟩ := retraces_option Identifier.retraces hdeclares
  obtain ⟨rfl,hactionFit⟩ := Action.retraces haction
  exact ⟨by simp only [hbytes,write,List.append_assoc],fit_append.mpr ⟨hdeclaresFit,hactionFit⟩⟩

theorem Reference.retraces : Retraces read write lengths := by
  intro bytes reference rest h
  obtain ⟨identifier,_,hidentifier,htail⟩ := bind_eq_ok_iff.mp h
  obtain ⟨isSupplied,_,hflag,hreference⟩ := bind_eq_ok_iff.mp htail
  obtain ⟨rfl,rfl⟩ := pure_eq_ok_iff.mp hreference
  obtain ⟨hbytes,hfit⟩ := Identifier.retraces hidentifier
  obtain ⟨rfl,_⟩ := retraces_flag hflag
  exact ⟨by rw [hbytes,write,List.append_assoc],hfit⟩

theorem Registry.retraces_entry : Retraces readEntry writeEntry entryLengths := by
  intro bytes e rest h
  obtain ⟨x,_,hx,htail⟩ := bind_eq_ok_iff.mp h
  obtain ⟨className,_,hclass,htail⟩ := bind_eq_ok_iff.mp htail
  obtain ⟨variableName,_,hvariable,he⟩ := bind_eq_ok_iff.mp htail
  obtain ⟨rfl,rfl⟩ := pure_eq_ok_iff.mp he
  obtain ⟨hbytes,hxFit⟩ := Identifier.retraces hx
  obtain ⟨rfl,hclassFit⟩ := retraces_text hclass
  obtain ⟨rfl,hvariableFit⟩ := retraces_text hvariable
  refine ⟨by simp only [hbytes,writeEntry,List.append_assoc],?_⟩
  simp only [entryLengths,fit_append]
  exact ⟨⟨hxFit,hclassFit⟩,hvariableFit⟩

namespace Document
variable {document : Document} {bytes rest : List UInt8}
variable {entries : List (Identifier × Registration)}

/-- The bytes of a document in front of its registry. -/
def front (document : Document) : List UInt8 :=
  writeList Statement.write document.statements ++ writeList Reference.write document.references

/-- The bytes of a document with entries for its registry in the order given. -/
def encodeWith (document : Document) (entries : List (Identifier × Registration)) : List UInt8 :=
  document.front ++ writeList Registry.writeEntry entries

def lengthsWith (document : Document) (entries : List (Identifier × Registration)) : List Nat :=
  listLengths Statement.lengths document.statements ++
    listLengths Reference.lengths document.references ++ listLengths Registry.entryLengths entries

theorem retraces (h : decode bytes = .ok (document,rest)) :
    ∃ entries, bytes = document.encodeWith entries ++ rest ∧ document.registry = .ofList entries ∧
      Fit (document.lengthsWith entries) := by
  obtain ⟨statements,_,hstatements,htail⟩ := bind_eq_ok_iff.mp h
  obtain ⟨references,_,hreferences,htail⟩ := bind_eq_ok_iff.mp htail
  obtain ⟨registry,_,hregistry,hdocument⟩ := bind_eq_ok_iff.mp htail
  obtain ⟨rfl,rfl⟩ := pure_eq_ok_iff.mp hdocument
  obtain ⟨entries,hentries,rfl⟩ := map_eq_ok_iff.mp hregistry
  obtain ⟨hbytes,hstatementsFit⟩ := retraces_list Statement.retraces hstatements
  obtain ⟨rfl,hreferencesFit⟩ := retraces_list Reference.retraces hreferences
  obtain ⟨rfl,hentriesFit⟩ := retraces_list Registry.retraces_entry hentries
  refine ⟨entries,?_,rfl,?_⟩
  · simp only [hbytes,encodeWith,front,List.append_assoc]
  · simp only [lengthsWith,fit_append]
    exact ⟨⟨hstatementsFit,hreferencesFit⟩,hentriesFit⟩

/-- Entries are accepted in any order and with repetitions. -/
theorem decode_encodeWith (hregistry : document.registry = .ofList entries)
    (h : Fit (document.lengthsWith entries)) (rest : List UInt8) :
    decode (document.encodeWith entries ++ rest) = .ok (document,rest) := by
  simp only [lengthsWith,fit_append] at h
  obtain ⟨⟨hstatements,hreferences⟩,hentries⟩ := h
  have hread : Registry.read (writeList Registry.writeEntry entries ++ rest) =
      .ok (document.registry,rest) := by
    rw [hregistry]
    exact (recovers_list hentries fun _ => Registry.recovers_entry).map rest
  simp only [encodeWith,front,List.append_assoc]
  refine ((recovers_list hstatements fun _ => Statement.recovers).bind _).trans ?_
  refine ((recovers_list hreferences fun _ => Reference.recovers).bind _).trans ?_
  exact bind_eq_ok_iff.mpr ⟨_,_,hread,rfl⟩

theorem encode_eq_encodeWith (document : Document) :
    document.encode = document.encodeWith document.registry.entries := rfl

theorem encodeWith_injective {others : List (Identifier × Registration)}
    (h : Fit (document.lengthsWith entries)) (ho : Fit (document.lengthsWith others))
    (he : document.encodeWith entries = document.encodeWith others) : entries = others := by
  have hlist := List.append_cancel_left he
  have hread := recovers_list (fit_append.mp h).2 (fun _ => Registry.recovers_entry) []
  rw [hlist,recovers_list (fit_append.mp ho).2 (fun _ => Registry.recovers_entry) []] at hread
  exact (Prod.mk.inj (Except.ok.inj hread)).1.symm

/-! What becomes of the entries when they are put in order. -/

theorem lengthsWith_inOrder (h : Fit (document.lengthsWith entries)) :
    Fit (document.lengthsWith (Registry.inOrder (Registry.lastEntries entries))) := by
  obtain ⟨hfront,hentries⟩ := fit_append.mp h
  obtain ⟨hlength,hmembers⟩ := fit_cons.mp hentries
  have hperm := Registry.inOrder_perm (Registry.lastEntries entries)
  have hsublist := Registry.lastEntries_sublist entries
  refine fit_append.mpr ⟨hfront,fit_cons.mpr ⟨?_,fit_flatMap.mpr fun e he => ?_⟩⟩
  · rw [hperm.length_eq]
    exact Nat.lt_of_le_of_lt hsublist.length_le hlength
  · exact fit_flatMap.mp hmembers e (hsublist.subset (hperm.subset he))

theorem length_encodeWith (document : Document) (entries : List (Identifier × Registration)) :
    (document.encodeWith entries).length =
      document.front.length + (lengthWidth + (entries.flatMap Registry.writeEntry).length) := by
  simp only [encodeWith,writeList,List.length_append,length_writeWord]

theorem length_encodeWith_inOrder_le :
    (document.encodeWith (Registry.inOrder (Registry.lastEntries entries))).length ≤
      (document.encodeWith entries).length := by
  have hperm := Registry.inOrder_perm (Registry.lastEntries entries)
  have hlast := (hperm.flatMap_right Registry.writeEntry).length_eq
  have hle := ((Registry.lastEntries_sublist entries).flatMap Registry.writeEntry).length_le
  rw [length_encodeWith,length_encodeWith]
  omega

/-- A document that was read is written as the bytes from which it was read, but for its registry: of the
entries that these bytes hold only the last of each identifier is written, in the order of the
identifiers. This is never longer, it differs from what was read unless the entries were in strict order,
and it is read as the same document. Other bytes of this document differ in the entries alone. -/
theorem encode_of_decode (h : decode bytes = .ok (document,rest)) : ∃ taken entries,
    bytes = taken ++ rest ∧ taken = document.encodeWith entries ∧
      document.encode =
        document.encodeWith (Registry.inOrder (Registry.lastEntries entries)) ∧
      (document.encode = taken ↔ entries.Pairwise (fun e f => e.1 < f.1)) ∧
      document.encode.length ≤ taken.length ∧ decode document.encode = .ok (document,[]) ∧
      ∀ other left, decode other = .ok (document,left) → ∃ others,
        other = document.encodeWith others ++ left ∧
          Registry.inOrder (Registry.lastEntries others) =
            Registry.inOrder (Registry.lastEntries entries) := by
  obtain ⟨entries,hbytes,hregistry,hfit⟩ := retraces h
  have hentries : document.registry.entries =
      Registry.inOrder (Registry.lastEntries entries) := by
    rw [hregistry,Registry.entries_ofList]
  have hencode : document.encode =
      document.encodeWith (Registry.inOrder (Registry.lastEntries entries)) := by
    rw [encode_eq_encodeWith,hentries]
  refine ⟨_,entries,hbytes,rfl,hencode,?_,?_,?_,?_⟩
  · rw [Registry.ascending_iff,hencode]
    exact ⟨encodeWith_injective (lengthsWith_inOrder hfit) hfit,congrArg _⟩
  · rw [hencode]
    exact length_encodeWith_inOrder_le
  · have hread := decode_encodeWith (Registry.ofList_entries _).symm
      (hentries ▸ lengthsWith_inOrder hfit) []
    rwa [List.append_nil] at hread
  · intro other left hother
    obtain ⟨others,hbytes,hregistry,_⟩ := retraces hother
    exact ⟨others,hbytes,by rw [← Registry.entries_ofList,← hregistry,hentries]⟩

/-- A registry with an entry that is replaced and with the identifiers in descending order. -/
theorem encode_of_decode_odd :
    let taken := odd.encodeWith [(⟨"b"⟩,⟨"B",""⟩),(⟨"b"⟩,⟨"","b"⟩),(⟨"a"⟩,⟨"A","\x00"⟩)]
    decode (taken ++ [1,0]) = .ok (odd,[1,0]) ∧ odd.encode ≠ taken ∧
      odd.encode.length < taken.length ∧ decode odd.encode = .ok (odd,[]) := by
  intro taken
  have hread : decode (taken ++ [1,0]) = .ok (odd,[1,0]) :=
    decode_encodeWith rfl (by decide +kernel) [1,0]
  obtain ⟨_,entries,_,_,_,_,_,hagain,_⟩ := encode_of_decode hread
  have hlt : odd.encode.length < taken.length := by decide +kernel
  exact ⟨hread,fun he => Nat.ne_of_lt hlt (congrArg _ he),hlt,hagain⟩

end Document

end ObjectGraph
