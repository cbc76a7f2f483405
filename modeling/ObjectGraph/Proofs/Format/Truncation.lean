import ObjectGraph.Proofs.Format.RoundTrip

/-! # Bytes cut short and bytes added

A reader goes from front to back. What it has accepted it also accepts in front of other bytes, and a
fault that it has met stays whatever follows. So the bytes of a document that are cut short hold no
other document and no other fault: they only end too early.
-/
namespace ObjectGraph

namespace Format
variable {α β : Type} {read : Reader α} {next : α → Reader β} {taken cut : List UInt8} {a : α}

/-- The bytes behind those that a reader has seen make no difference to it. -/
structure Sequential (read : Reader α) : Prop where
  ok : ∀ {bytes a rest}, read bytes = .ok (a,rest) →
    ∃ taken, bytes = taken ++ rest ∧ ∀ more, read (taken ++ more) = .ok (a,more)
  error : ∀ {bytes fault}, read bytes = .error fault → fault ≠ .endOfInput →
    ∀ more, read (bytes ++ more) = .error fault

theorem Sequential.pure (a : α) : Sequential (pure a) where
  ok := by
    intro bytes b rest h
    obtain ⟨rfl,rfl⟩ := pure_eq_ok_iff.mp h
    exact ⟨[],rfl,fun more => rfl⟩
  error := by
    intro bytes fault h
    cases h

theorem Sequential.fail (fault : Fault) : Sequential (fail fault : Reader α) where
  ok := by
    intro bytes a rest h
    cases h
  error := by
    intro bytes other h _ more
    exact h

theorem Sequential.bind (h : Sequential read) (hnext : ∀ a, Sequential (next a)) :
    Sequential (read >>= next) where
  ok := by
    intro bytes b rest hread
    obtain ⟨a,middle,ha,hb⟩ := bind_eq_ok_iff.mp hread
    obtain ⟨front,rfl,hfront⟩ := h.ok ha
    obtain ⟨back,rfl,hback⟩ := (hnext a).ok hb
    refine ⟨front ++ back,(List.append_assoc ..).symm,fun more => ?_⟩
    rw [List.append_assoc]
    exact bind_eq_ok_iff.mpr ⟨a,back ++ more,hfront _,hback more⟩
  error := by
    intro bytes fault hread hfault more
    rcases bind_eq_error_iff.mp hread with ha | ⟨a,middle,ha,hb⟩
    · exact bind_eq_error_iff.mpr (Or.inl (h.error ha hfault more))
    · -- The fault is behind what the first reader has accepted.
      obtain ⟨front,rfl,hfront⟩ := h.ok ha
      rw [List.append_assoc]
      exact bind_eq_error_iff.mpr (Or.inr ⟨a,_,hfront _,(hnext a).error hb hfault more⟩)

theorem Sequential.map {f : α → β} (h : Sequential read) : Sequential (f <$> read) := by
  rw [map_eq_pure_bind]
  exact h.bind fun a => .pure (f a)

/-- Accepted bytes that are cut short end too early. -/
theorem Sequential.eq_endOfInput (h : Sequential read)
    (hread : ∀ more, read (taken ++ more) = .ok (a,more)) (hcut : cut <+: taken)
    (hne : cut ≠ taken) : read cut = .error .endOfInput := by
  obtain ⟨tail,rfl⟩ := hcut
  have hall := hread []
  rw [List.append_nil] at hall
  cases hresult : read cut with
  | ok result =>
    obtain ⟨b,rest⟩ := result
    obtain ⟨front,rfl,hfront⟩ := h.ok hresult
    have htail := hfront (rest ++ tail)
    rw [← List.append_assoc,hall] at htail
    -- The whole is read to its end, so nothing has been cut off.
    obtain ⟨_,hnil⟩ := Prod.mk.inj (Except.ok.inj htail)
    obtain ⟨rfl,rfl⟩ := List.append_eq_nil_iff.mp hnil.symm
    exact absurd (List.append_nil _).symm hne
  | error fault =>
    by_cases hfault : fault = .endOfInput
    · rw [hfault]
    · have hagain := h.error hresult hfault tail
      rw [hall] at hagain
      cases hagain

theorem sequential_byte : Sequential readByte where
  ok := by
    intro bytes byte rest h
    cases bytes with
    | nil => cases h
    | cons b bytes =>
      obtain ⟨rfl,rfl⟩ := Prod.mk.inj (Except.ok.inj h)
      exact ⟨[b],rfl,fun more => rfl⟩
  error := by
    intro bytes fault h hfault more
    cases bytes with
    | nil => exact absurd (Except.error.inj h).symm hfault
    | cons b bytes => cases h

theorem sequential_bytes (n : Nat) : Sequential (readBytes n) := by
  induction n with
  | zero => exact .pure []
  | succ n ih => exact sequential_byte.bind fun _ => ih.bind fun _ => .pure _

theorem sequential_word (width : Nat) : Sequential (readWord width) := by
  induction width with
  | zero => exact .pure 0
  | succ width ih => exact sequential_byte.bind fun _ => ih.bind fun _ => .pure _

theorem sequential_flag : Sequential readFlag := by
  refine sequential_byte.bind fun byte => ?_
  split
  · exact .pure false
  split
  · exact .pure true
  · exact .fail _

/-- A text that is too short is too short before its bytes are looked at. -/
theorem sequential_text : Sequential readText := by
  refine (sequential_word _).bind fun length => (sequential_bytes length).bind fun bytes => ?_
  split
  · exact .pure _
  · exact .fail _

theorem sequential_option (h : Sequential read) : Sequential (readOption read) := by
  refine sequential_byte.bind fun tag => ?_
  split
  · exact .pure none
  split
  · exact h.map
  · exact .fail _

theorem sequential_many (h : Sequential read) (count : Nat) : Sequential (readMany read count) := by
  induction count with
  | zero => exact .pure []
  | succ count ih => exact h.bind fun _ => ih.bind fun _ => .pure _

theorem sequential_list (h : Sequential read) : Sequential (readList read) :=
  (sequential_word _).bind fun count => sequential_many h count

theorem sequential_choice (all : List α) : Sequential (readChoice all) := by
  refine (sequential_word _).bind fun index => ?_
  split
  · exact .pure _
  · exact .fail _

end Format

open Format

theorem Identifier.sequential : Sequential Identifier.read := sequential_text.map

theorem Binary64.sequential : Sequential Binary64.read := (sequential_word 8).map

theorem Value.sequential : Sequential Value.read := by
  refine (sequential_word _).bind fun index => ?_
  split
  · exact sequential_text.map
  · exact Identifier.sequential.map
  · exact .fail _

theorem Argument.sequential : Sequential Argument.read :=
  (sequential_option sequential_text).bind fun _ => Value.sequential.bind fun _ => .pure _

theorem Anchor.sequential : Sequential Anchor.read :=
  Identifier.sequential.bind fun _ => sequential_text.bind fun _ => .pure _

theorem Action.sequential : Sequential Action.read := by
  have harguments := sequential_list Argument.sequential
  have hnumber := sequential_option Binary64.sequential
  refine (sequential_word _).bind fun index => ?_
  split
  · exact sequential_text.bind fun _ => harguments.bind fun _ => .pure _
  · exact Identifier.sequential.bind fun _ => sequential_text.bind fun _ =>
      Value.sequential.bind fun _ => .pure _
  · exact Identifier.sequential.bind fun _ => sequential_text.bind fun _ =>
      harguments.bind fun _ => .pure _
  · exact Identifier.sequential.bind fun _ => Identifier.sequential.bind fun _ => .pure _
  · exact Anchor.sequential.bind fun _ => (sequential_choice _).bind fun _ =>
      (sequential_option Anchor.sequential).bind fun _ => hnumber.bind fun _ =>
        hnumber.bind fun _ => .pure _
  · exact sequential_text.bind fun _ => (sequential_list Identifier.sequential).bind fun _ =>
      .pure _
  · exact .fail _

theorem Statement.sequential : Sequential Statement.read :=
  (sequential_choice _).bind fun _ => (sequential_option Identifier.sequential).bind fun _ =>
    Action.sequential.bind fun _ => .pure _

theorem Reference.sequential : Sequential Reference.read :=
  Identifier.sequential.bind fun _ => sequential_flag.bind fun _ => .pure _

theorem Registry.sequential_entry : Sequential Registry.readEntry :=
  Identifier.sequential.bind fun _ => sequential_text.bind fun _ => sequential_text.bind fun _ =>
    .pure _

theorem Registry.sequential : Sequential Registry.read := (sequential_list sequential_entry).map

namespace Document

theorem sequential : Sequential Document.read :=
  (sequential_list Statement.sequential).bind fun _ =>
    (sequential_list Reference.sequential).bind fun _ => Registry.sequential.bind fun _ => .pure _

/-- Bytes are read front to back. Those of a document are the same document in front of any others, and
cut short they only end too early; any other fault stays whatever follows it. So no writing of a document
opens another one. -/
theorem decode_front_to_back (bytes : List UInt8) :
    (∀ document rest, decode bytes = .ok (document,rest) → ∃ taken, bytes = taken ++ rest ∧
        (∀ more, decode (taken ++ more) = .ok (document,more)) ∧
        ∀ cut, cut <+: taken → cut ≠ taken → decode cut = .error .endOfInput) ∧
      (∀ fault, decode bytes = .error fault → fault ≠ .endOfInput →
        ∀ more, decode (bytes ++ more) = .error fault) ∧
      (∀ document other more, decode bytes = .ok (document,[]) →
        decode (bytes ++ more) = .ok (other,[]) → more = [] ∧ other = document) ∧
      ∀ document other : Document, Fit document.lengths → Fit other.lengths →
        document.encode <+: other.encode → document = other := by
  have haccepted : ∀ {bytes document rest}, decode bytes = .ok (document,rest) →
      ∃ taken, bytes = taken ++ rest ∧ ∀ more, decode (taken ++ more) = .ok (document,more) :=
    sequential.ok
  refine ⟨?_,fun fault h hfault => sequential.error h hfault,?_,?_⟩
  · intro document rest h
    obtain ⟨taken,hbytes,htaken⟩ := haccepted h
    exact ⟨taken,hbytes,htaken,fun cut => sequential.eq_endOfInput htaken⟩
  · intro document other more h hmore
    obtain ⟨taken,rfl,htaken⟩ := haccepted h
    rw [List.append_nil,htaken more] at hmore
    obtain ⟨rfl,rfl⟩ := Prod.mk.inj (Except.ok.inj hmore)
    exact ⟨rfl,rfl⟩
  · rintro document other hfit hother ⟨more,hmore⟩
    exact (eq_of_encode_append hother hfit (hmore.trans (List.append_nil _).symm)).1

/-- The bytes of a document whose registry is not in order, with a byte behind them. -/
def shuffled : List UInt8 :=
  writeWord lengthWidth 0 ++ writeWord lengthWidth 0 ++
    writeList Registry.writeEntry [(⟨"b"⟩,⟨"B","x"⟩),(⟨"a"⟩,⟨"","é"⟩),(⟨"b"⟩,⟨"","y"⟩)] ++ [7]

/-- Cut inside a letter of two bytes, these bytes are too few and not wrong. A phase without a name is
wrong, and stays so. -/
theorem shuffled_cut_short :
    decode shuffled = .ok (⟨[],[],.ofList [(⟨"a"⟩,⟨"","é"⟩),(⟨"b"⟩,⟨"","y"⟩)]⟩,[7]) ∧
      shuffled.take 77 <+: shuffled.dropLast ∧ shuffled[76]? = some 0xC3 ∧
      decode (shuffled.take 77) = .error .endOfInput ∧
      Fault.badIndex 4 4 ≠ .endOfInput ∧
      decode (writeWord lengthWidth 1 ++ writeWord indexWidth 4 ++ [0]) = .error (.badIndex 4 4) := by
  have hread : decode shuffled =
      .ok (⟨[],[],.ofList [(⟨"a"⟩,⟨"","é"⟩),(⟨"b"⟩,⟨"","y"⟩)]⟩,[7]) := rfl
  have hfault : Fault.badIndex 4 4 ≠ .endOfInput := by decide
  have hbegins : shuffled.take 77 <+: shuffled.dropLast := by
    rw [List.dropLast_eq_take]
    exact List.take_prefix_take_left (by decide)
  obtain ⟨taken,hbytes,_,hcut⟩ := (decode_front_to_back shuffled).1 _ _ hread
  have htaken : taken = shuffled.dropLast := by rw [hbytes,List.dropLast_concat]
  subst htaken
  obtain ⟨_,hfaulty,_⟩ := decode_front_to_back (writeWord lengthWidth 1 ++ writeWord indexWidth 4)
  exact ⟨hread,hbegins,rfl,hcut _ hbegins (by decide),hfault,hfaulty _ rfl hfault [0]⟩

end Document

end ObjectGraph
