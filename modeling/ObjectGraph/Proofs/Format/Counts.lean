import ObjectGraph.Proofs.Format.Consumption

/-! # Counts that the bytes cannot hold

The count in front of a list is read before its elements and is not checked. But every element takes
some bytes, and the first one that is not there ends the decoding. So a count makes no more work than the
bytes behind it can hold.
-/
namespace ObjectGraph

namespace Format
variable {α β γ : Type} {read : Reader α} {least n : Nat} {bytes place middle rest : List UInt8}

theorem readBytes_eq_readMany (n : Nat) : readBytes n = readMany readByte n := by
  induction n with
  | zero => rfl
  | succ n ih => rw [readBytes,readMany,ih]

/-! The readers that a reader runs. -/

/-- A reader runs another one at a place in its bytes: as its first step, or in a later step after
earlier ones that succeed. -/
inductive Reaches (inner : Reader γ) (place : List UInt8) :
    {α : Type} → Reader α → List UInt8 → Prop
  | here : Reaches inner place inner place
  | first {α β : Type} {read : Reader α} {next : α → Reader β} {bytes : List UInt8} :
      Reaches inner place read bytes → Reaches inner place (read >>= next) bytes
  | next {α β : Type} {read : Reader α} {next : α → Reader β} {bytes middle : List UInt8} {a : α} :
      read bytes = .ok (a,middle) → Reaches inner place (next a) middle →
        Reaches inner place (read >>= next) bytes

namespace Reaches
variable {inner : Reader γ}

/-- A fault in a place that is reached is the fault of the whole. -/
theorem error {fault : Fault} (h : Reaches inner place read bytes)
    (hinner : inner place = .error fault) : read bytes = .error fault := by
  induction h with
  | here => exact hinner
  | first _ ih => exact bind_eq_error_iff.mpr (Or.inl ih)
  | next hread _ ih => exact bind_eq_error_iff.mpr (Or.inr ⟨_,_,hread,ih⟩)

theorem map {f : α → β} (h : Reaches inner place read bytes) :
    Reaches inner place (f <$> read) bytes := by
  rw [map_eq_pure_bind]
  exact h.first

theorem trans {outer : Reader β} (h : Reaches inner place read middle)
    (houter : Reaches read middle outer bytes) : Reaches inner place outer bytes := by
  induction houter with
  | here => exact h
  | first _ ih => exact ih.first
  | next hread _ ih => exact .next hread ih

/-- Behind the elements of a list that are there, the next one is read. -/
theorem element {list : List α} {k : Nat} (hk : k < n)
    (hmany : readMany read k bytes = .ok (list,place)) :
    Reaches read place (readMany read n) bytes := by
  induction k generalizing bytes n list with
  | zero =>
    obtain ⟨_,rfl⟩ := pure_eq_ok_iff.mp hmany
    obtain ⟨n,rfl⟩ := Nat.exists_eq_add_of_lt hk
    rw [Nat.zero_add]
    exact .first .here
  | succ k ih =>
    obtain ⟨a,others,middle,rfl,ha,hothers⟩ := readMany_succ_eq_ok_iff.mp hmany
    cases n with
    | zero => exact absurd hk (Nat.not_lt_zero _)
    | succ n => exact .next ha (.first (ih (Nat.lt_of_succ_lt_succ hk) hothers))

end Reaches

/-! The elements that are begun, those that turn out not to be there among them. -/

/-- Work that waits for a reader to succeed. -/
def behind (read : Reader α) (work : α → List UInt8 → Nat) (bytes : List UInt8) : Nat :=
  match read bytes with
  | .ok (a,rest) => work a rest
  | .error _ => 0

theorem behind_eq {work : α → List UInt8 → Nat} {a : α} (h : read bytes = .ok (a,rest)) :
    behind read work bytes = work a rest := by
  rw [behind,h]

/-- The elements of a list that are begun, each with what is begun inside it. -/
def begun (read : Reader α) (inside : List UInt8 → Nat) : Nat → List UInt8 → Nat
  | 0, _ => 0
  | n + 1, bytes => inside bytes + 1 + behind read (fun _ => begun read inside n) bytes

/-- The elements of a list that are begun, without what is begun inside them. -/
def visits (read : Reader α) : Nat → List UInt8 → Nat := begun read fun _ => 0

/-- No element behind the ones that are begun makes a difference. -/
theorem readMany_visits (read : Reader α) (n : Nat) (bytes : List UInt8) :
    readMany read (visits read n bytes) bytes = readMany read n bytes := by
  induction n generalizing bytes with
  | zero => rfl
  | succ n ih =>
    cases hread : read bytes with
    | error fault =>
      -- One look at the element that is not there is enough for the fault.
      have herror : ∀ k, readMany read (k + 1) bytes = .error fault := fun k =>
        bind_eq_error_iff.mpr (Or.inl hread)
      rw [visits,begun,Nat.zero_add,Nat.add_comm,herror,herror]
    | ok result =>
      obtain ⟨a,rest⟩ := result
      have hvisits : visits read (n + 1) bytes = visits read n rest + 1 := by
        rw [visits,begun,behind_eq hread]
        omega
      rw [hvisits]
      simp only [readMany,bind,StateT.bind,Except.bind,hread,ih]

section Work
variable {inside : List UInt8 → Nat} {unit extra : Nat}

/-- An element that is there has a unit of bytes for itself and for each element begun inside it. -/
def Pays (read : Reader α) (inside : List UInt8 → Nat) (unit : Nat) : Prop :=
  ∀ ⦃bytes a rest⦄, read bytes = .ok (a,rest) →
    unit * (inside bytes + 1) + rest.length ≤ bytes.length

theorem Consumes.pays (h : Consumes read unit) : Pays read (fun _ => 0) unit := by
  intro bytes a rest hread
  have hrest := h hread
  simp only [Nat.zero_add,Nat.mul_one]
  omega

/-- Elements that are there have paid for all that was begun. -/
theorem begun_paid (h : Pays read inside unit) {list : List α}
    (hmany : readMany read n bytes = .ok (list,rest)) :
    unit * begun read inside n bytes + rest.length ≤ bytes.length := by
  induction n generalizing bytes list with
  | zero =>
    obtain ⟨_,rfl⟩ := pure_eq_ok_iff.mp hmany
    simp [begun]
  | succ n ih =>
    obtain ⟨a,others,middle,rfl,ha,hothers⟩ := readMany_succ_eq_ok_iff.mp hmany
    have hfirst := h ha
    have hrest := ih hothers
    rw [begun,behind_eq ha,Nat.mul_add]
    omega

/-- At most the last element that is begun has not paid. -/
theorem begun_le (h : Pays read inside unit)
    (hinside : ∀ bytes, unit * inside bytes ≤ bytes.length + extra) (n : Nat)
    (bytes : List UInt8) : unit * begun read inside n bytes ≤ bytes.length + extra + unit := by
  induction n generalizing bytes with
  | zero => simp [begun]
  | succ n ih =>
    cases hread : read bytes with
    | error fault =>
      -- Nothing is begun behind this element, and only what is inside it may be unpaid.
      have hlast := hinside bytes
      simp only [begun,behind,hread,Nat.mul_add]
      omega
    | ok result =>
      obtain ⟨a,rest⟩ := result
      have hfirst := h hread
      have hrest := ih rest
      rw [begun,behind_eq hread,Nat.mul_add]
      omega

theorem visits_le (h : Consumes read least) (hpos : 0 < least) (n : Nat) (bytes : List UInt8) :
    visits read n bytes ≤ bytes.length / least + 1 := by
  have hle : least * visits read n bytes ≤ bytes.length + 0 + least :=
    begun_le h.pays (fun _ => Nat.zero_le _) n bytes
  rw [← Nat.add_div_right _ hpos,Nat.le_div_iff_mul_le hpos,Nat.mul_comm]
  exact hle

theorem behind_le {work : α → List UInt8 → Nat} (h : Consumes read least)
    (hwork : ∀ a bytes, unit * work a bytes ≤ bytes.length + extra) (bytes : List UInt8) :
    unit * behind read work bytes ≤ bytes.length + extra := by
  cases hread : read bytes with
  | error fault => simp [behind,hread]
  | ok result =>
    obtain ⟨a,rest⟩ := result
    have hrest := h hread
    have hle := hwork a rest
    rw [behind_eq hread]
    omega

/-- What is begun in a list behind its count. -/
def begunList (read : Reader α) (inside : List UInt8 → Nat) : List UInt8 → Nat :=
  behind (readWord lengthWidth) (begun read inside)

/-- In a list that is there all elements are begun, and all that they hold. -/
theorem begun_eq {weight : α → Nat}
    (h : ∀ ⦃bytes a rest⦄, read bytes = .ok (a,rest) → inside bytes = weight a) {list : List α}
    (hmany : readMany read n bytes = .ok (list,rest)) :
    begun read inside n bytes = (list.map fun a => weight a + 1).sum := by
  induction n generalizing bytes list with
  | zero =>
    obtain ⟨rfl,_⟩ := pure_eq_ok_iff.mp hmany
    rfl
  | succ n ih =>
    obtain ⟨a,others,middle,rfl,ha,hothers⟩ := readMany_succ_eq_ok_iff.mp hmany
    rw [begun,behind_eq ha,ih hothers,h ha,List.map_cons,List.sum_cons]

theorem begunList_eq {weight : α → Nat}
    (h : ∀ ⦃bytes a rest⦄, read bytes = .ok (a,rest) → inside bytes = weight a) {list : List α}
    (hlist : readList read bytes = .ok (list,rest)) :
    begunList read inside bytes = (list.map fun a => weight a + 1).sum := by
  obtain ⟨n,middle,hcount,hmany⟩ := bind_eq_ok_iff.mp hlist
  rw [begunList,behind_eq hcount,begun_eq h hmany]

theorem begunList_eq_length {list : List α} (hlist : readList read bytes = .ok (list,rest)) :
    begunList read (fun _ => 0) bytes = list.length := by
  rw [begunList_eq (fun _ _ _ _ => rfl) hlist,List.map_const',List.sum_replicate_nat,Nat.mul_one]

theorem begunList_paid (h : Pays read inside unit) {list : List α}
    (hlist : readList read bytes = .ok (list,rest)) :
    unit * begunList read inside bytes + rest.length + 8 ≤ bytes.length := by
  obtain ⟨n,middle,hcount,hmany⟩ := bind_eq_ok_iff.mp hlist
  have hword := consumes_word _ hcount
  have hpaid := begun_paid h hmany
  rw [lengthWidth] at hword
  rw [begunList,behind_eq hcount]
  omega

theorem begunList_le (h : Pays read inside unit)
    (hinside : ∀ bytes, unit * inside bytes ≤ bytes.length + extra) (bytes : List UInt8) :
    unit * begunList read inside bytes ≤ bytes.length + extra + unit := by
  rw [Nat.add_assoc]
  refine behind_le (consumes_word lengthWidth) (fun n rest => ?_) bytes
  rw [← Nat.add_assoc]
  exact begun_le h hinside n rest

end Work

end Format

open Format

/-! What is begun in the lists of a document and in the lists of its actions. -/

/-- The elements that are begun in the list of an action that has one, behind its index. -/
def Action.begunBehind : Nat → List UInt8 → Nat
  | 0, bytes => behind readText (fun _ => begunList Argument.read fun _ => 0) bytes
  | 2, bytes =>
    behind Identifier.read (fun _ => behind readText fun _ => begunList Argument.read fun _ => 0)
      bytes
  | 5, bytes => behind readText (fun _ => begunList Identifier.read fun _ => 0) bytes
  | _, _ => 0

def Action.begun : List UInt8 → Nat := behind (readWord indexWidth) begunBehind

def Statement.begun : List UInt8 → Nat :=
  behind Phase.read fun _ => behind (readOption Identifier.read) fun _ => Action.begun

/-- All elements that are begun while a document is decoded, those in its statements among them. -/
def Document.begun (bytes : List UInt8) : Nat :=
  begunList Statement.read Statement.begun bytes +
    behind (readList Statement.read) (fun _ rest =>
      begunList Reference.read (fun _ => 0) rest +
        behind (readList Reference.read) (fun _ => begunList Registry.readEntry fun _ => 0) rest)
      bytes

theorem Argument.pays : Pays Argument.read (fun _ => 0) 8 :=
  (Argument.consumes.mono (by decide)).pays

theorem Action.begun_eq {bytes rest : List UInt8} {action : Action}
    (h : Action.read bytes = .ok (action,rest)) :
    begun bytes = action.arguments.length + action.listed.length := by
  obtain ⟨index,middle,hindex,hcase⟩ := bind_eq_ok_iff.mp h
  rw [begun,behind_eq hindex]
  split at hcase
  · obtain ⟨className,_,hname,hcase⟩ := bind_eq_ok_iff.mp hcase
    obtain ⟨arguments,_,harguments,hcase⟩ := bind_eq_ok_iff.mp hcase
    obtain ⟨rfl,rfl⟩ := pure_eq_ok_iff.mp hcase
    rw [begunBehind,behind_eq hname,begunList_eq_length harguments]
    rfl
  · obtain ⟨target,_,_,hcase⟩ := bind_eq_ok_iff.mp hcase
    obtain ⟨key,_,_,hcase⟩ := bind_eq_ok_iff.mp hcase
    obtain ⟨value,_,_,hcase⟩ := bind_eq_ok_iff.mp hcase
    obtain ⟨rfl,rfl⟩ := pure_eq_ok_iff.mp hcase
    rfl
  · obtain ⟨target,_,htarget,hcase⟩ := bind_eq_ok_iff.mp hcase
    obtain ⟨method,_,hmethod,hcase⟩ := bind_eq_ok_iff.mp hcase
    obtain ⟨arguments,_,harguments,hcase⟩ := bind_eq_ok_iff.mp hcase
    obtain ⟨rfl,rfl⟩ := pure_eq_ok_iff.mp hcase
    rw [begunBehind,behind_eq htarget,behind_eq hmethod,begunList_eq_length harguments]
    rfl
  · obtain ⟨parent,_,_,hcase⟩ := bind_eq_ok_iff.mp hcase
    obtain ⟨child,_,_,hcase⟩ := bind_eq_ok_iff.mp hcase
    obtain ⟨rfl,rfl⟩ := pure_eq_ok_iff.mp hcase
    rfl
  · obtain ⟨first,_,_,hcase⟩ := bind_eq_ok_iff.mp hcase
    obtain ⟨relation,_,_,hcase⟩ := bind_eq_ok_iff.mp hcase
    obtain ⟨second,_,_,hcase⟩ := bind_eq_ok_iff.mp hcase
    obtain ⟨multiplier,_,_,hcase⟩ := bind_eq_ok_iff.mp hcase
    obtain ⟨constant,_,_,hcase⟩ := bind_eq_ok_iff.mp hcase
    obtain ⟨rfl,rfl⟩ := pure_eq_ok_iff.mp hcase
    rfl
  · obtain ⟨code,_,hcode,hcase⟩ := bind_eq_ok_iff.mp hcase
    obtain ⟨dependencies,_,hdependencies,hcase⟩ := bind_eq_ok_iff.mp hcase
    obtain ⟨rfl,rfl⟩ := pure_eq_ok_iff.mp hcase
    rw [begunBehind,behind_eq hcode,begunList_eq_length hdependencies]
    exact (Nat.zero_add _).symm
  · cases hcase

theorem Action.begun_le (bytes : List UInt8) : 8 * begun bytes ≤ bytes.length + 8 := by
  have harguments := begunList_le Argument.pays fun bytes => Nat.zero_le (bytes.length + 0)
  have hdependencies :=
    begunList_le Identifier.consumes.pays fun bytes => Nat.zero_le (bytes.length + 0)
  refine behind_le (consumes_word indexWidth) (fun index rest => ?_) bytes
  unfold begunBehind
  split
  · exact behind_le consumes_text (fun _ => harguments) rest
  · exact behind_le Identifier.consumes (fun _ => behind_le consumes_text fun _ => harguments) rest
  · exact behind_le consumes_text (fun _ => hdependencies) rest
  · exact Nat.zero_le _

theorem Statement.begun_eq {bytes rest : List UInt8} {statement : Statement}
    (h : Statement.read bytes = .ok (statement,rest)) :
    begun bytes = statement.action.arguments.length + statement.action.listed.length := by
  obtain ⟨phase,_,hphase,htail⟩ := bind_eq_ok_iff.mp h
  obtain ⟨declares,_,hdeclares,htail⟩ := bind_eq_ok_iff.mp htail
  obtain ⟨action,_,haction,hstatement⟩ := bind_eq_ok_iff.mp htail
  obtain ⟨rfl,rfl⟩ := pure_eq_ok_iff.mp hstatement
  rw [begun,behind_eq hphase,behind_eq hdeclares,Action.begun_eq haction]

theorem Statement.pays : Pays Statement.read Statement.begun 8 := by
  intro bytes statement rest h
  have hle := statement.le_length_write
  rw [begun_eq h,(retraces h).1,List.length_append]
  omega

theorem Statement.begun_le (bytes : List UInt8) : 8 * begun bytes ≤ bytes.length + 8 :=
  behind_le Phase.consumes
    (fun _ => behind_le Identifier.consumes_option fun _ => Action.begun_le) bytes

/-- The elements of the lists of a document, those of its statements' lists among them. -/
def Document.size (document : Document) : Nat :=
  (document.statements.map fun s =>
    s.action.arguments.length + s.action.listed.length + 1).sum +
    document.references.length + document.registry.entries.length

/-- All elements of a document that is accepted have been begun, and entries that are replaced. -/
theorem Document.size_le_begun {bytes rest : List UInt8} {document : Document}
    (h : decode bytes = .ok (document,rest)) : document.size ≤ begun bytes := by
  obtain ⟨statements,_,hstatements,htail⟩ := bind_eq_ok_iff.mp h
  obtain ⟨references,_,hreferences,htail⟩ := bind_eq_ok_iff.mp htail
  obtain ⟨registry,_,hregistry,hdocument⟩ := bind_eq_ok_iff.mp htail
  obtain ⟨rfl,rfl⟩ := pure_eq_ok_iff.mp hdocument
  obtain ⟨entries,hentries,rfl⟩ := map_eq_ok_iff.mp hregistry
  have hle := Registry.length_ofList_le entries
  rw [begun,behind_eq hstatements,behind_eq hreferences,
    begunList_eq (fun _ _ _ => Statement.begun_eq) hstatements,begunList_eq_length hreferences,
    begunList_eq_length hentries]
  simp only [size]
  omega

/-- At most one statement and one element inside it are begun without the bytes for them. -/
theorem Document.begun_le (bytes : List UInt8) : begun bytes ≤ bytes.length / 8 + 2 := by
  have hentries := begunList_le (Registry.consumes_entry.mono (by decide : 8 ≤ 24)).pays
    fun bytes => Nat.zero_le (bytes.length + 0)
  have hpays : Pays Reference.read (fun _ => 0) 8 := (Reference.consumes.mono (by decide)).pays
  have hreferences := begunList_le hpays fun bytes => Nat.zero_le (bytes.length + 0)
  have hstatements := begunList_le Statement.pays Statement.begun_le bytes
  suffices 8 * begun bytes ≤ bytes.length + 16 by omega
  cases hlist : readList Statement.read bytes with
  | error fault =>
    -- The decoding ends in the statements, perhaps in a list of one of them.
    simp only [begun,behind,hlist]
    omega
  | ok result =>
    obtain ⟨statements,rest⟩ := result
    have hpaid := begunList_paid Statement.pays hlist
    rw [begun,behind_eq hlist]
    cases hlist : readList Reference.read rest with
    | error fault =>
      have hrest := hreferences rest
      simp only [behind,hlist]
      omega
    | ok result =>
      obtain ⟨references,rest⟩ := result
      have hpaid := begunList_paid hpays hlist
      have hrest := hentries rest
      rw [behind_eq hlist]
      omega

/-! The lists that are read in the bytes of a document. -/

/-- The elements of one kind of list. -/
structure Elements where
  {Element : Type}
  read : Reader Element
  /-- The fewest bytes that hold an element. As many zeros are one. -/
  least : Nat
  pos : 0 < least
  consumes : Consumes read least
  zeros : ∃ a, read (List.replicate least 0) = .ok (a,[])

def Statement.elements : Elements :=
  ⟨Statement.read,25,by decide,Statement.consumes,_,rfl⟩

def Reference.elements : Elements :=
  ⟨Reference.read,9,by decide,Reference.consumes,_,rfl⟩

def Registry.elements : Elements :=
  ⟨Registry.readEntry,24,by decide,Registry.consumes_entry,_,rfl⟩

def Argument.elements : Elements :=
  ⟨Argument.read,13,by decide,Argument.consumes,_,rfl⟩

def Identifier.elements : Elements :=
  ⟨Identifier.read,8,by decide,Identifier.consumes,_,rfl⟩

/-- The place of the count of a list in the bytes of an action. -/
inductive Action.CountAt (bytes : List UInt8) : Elements → List UInt8 → Prop
  | construct {middle place : List UInt8} {className : String} :
      readWord indexWidth bytes = .ok (0,middle) → readText middle = .ok (className,place) →
        CountAt bytes Argument.elements place
  | invoke {middle back place : List UInt8} {target : Identifier} {method : String} :
      readWord indexWidth bytes = .ok (2,middle) → Identifier.read middle = .ok (target,back) →
        readText back = .ok (method,place) → CountAt bytes Argument.elements place
  | verbatim {middle place : List UInt8} {code : String} :
      readWord indexWidth bytes = .ok (5,middle) → readText middle = .ok (code,place) →
        CountAt bytes Identifier.elements place

/-- The place of the count of a list in the bytes of a document, behind all that is read before it. -/
inductive Document.CountAt (bytes : List UInt8) : Elements → List UInt8 → Prop
  | statements : CountAt bytes Statement.elements bytes
  | references {place : List UInt8} {statements : List Statement} :
      readList Statement.read bytes = .ok (statements,place) →
        CountAt bytes Reference.elements place
  | entries {middle place : List UInt8} {statements : List Statement}
      {references : List Reference} :
      readList Statement.read bytes = .ok (statements,middle) →
        readList Reference.read middle = .ok (references,place) →
          CountAt bytes Registry.elements place
  | action {n k : Nat} {start middle back front place : List UInt8} {earlier : List Statement}
      {phase : Phase} {declares : Option Identifier} {list : Elements} :
      readWord lengthWidth bytes = .ok (n,start) → k < n →
        readMany Statement.read k start = .ok (earlier,middle) →
          Phase.read middle = .ok (phase,back) →
            readOption Identifier.read back = .ok (declares,front) →
              Action.CountAt front list place → CountAt bytes list place

section Places
variable {bytes place : List UInt8} {list : Elements}

theorem Action.CountAt.reaches (h : CountAt bytes list place) :
    Reaches (readList list.read) place Action.read bytes := by
  cases h with
  | construct hindex hname => exact .next hindex (.next hname (.first .here))
  | invoke hindex htarget hmethod =>
    exact .next hindex (.next htarget (.next hmethod (.first .here)))
  | verbatim hindex hcode => exact .next hindex (.next hcode (.first .here))

theorem Document.CountAt.reaches (h : CountAt bytes list place) :
    Reaches (readList list.read) place Document.read bytes := by
  cases h with
  | statements => exact .first .here
  | references hstatements => exact .next hstatements (.first .here)
  | entries hstatements hreferences =>
    exact .next hstatements (.next hreferences (.first (.map .here)))
  | action hcount hk hearlier hphase hdeclares haction =>
    have hstatement : Reaches Action.read _ Statement.read _ :=
      .next hphase (.next hdeclares (.first .here))
    exact haction.reaches.trans
      (hstatement.trans (.first (.next hcount (.element hk hearlier))))

end Places

namespace Document

/-- The lists of a document and of its statements. -/
def lists : List Elements :=
  [Statement.elements,Reference.elements,Registry.elements,Argument.elements,Identifier.elements]

theorem CountAt.mem_lists {bytes place : List UInt8} {list : Elements}
    (h : CountAt bytes list place) : list ∈ lists := by
  cases h with
  | action _ _ _ _ _ haction => cases haction <;> simp [lists]
  | _ => simp [lists]

/-- Decoding does no more than the bytes can hold, whatever the counts in front of lists say. The counts
of all lists are reached, each behind what is read before it. A count that is reached with too few bytes
behind it for the least elements of its list ends in a fault; the elements that are begun are bounded by
these bytes, and elements behind them make no difference. So a document that is accepted has as many
bytes as its elements need, and over all lists no more elements are begun than there are words of eight
bytes, but for the last statement and the last element in it. -/
theorem counts_within_bytes (bytes : List UInt8) :
    (∀ list place, CountAt bytes list place →
        list ∈ lists ∧ Reaches (readList list.read) place Document.read bytes) ∧
      (∀ list ∈ lists,
        (∀ place n rest, Reaches (readList list.read) place Document.read bytes →
          readWord lengthWidth place = .ok (n,rest) →
            (rest.length < n * list.least → ∃ fault, decode bytes = .error fault) ∧
              visits list.read n rest ≤ rest.length / list.least + 1 ∧
              readMany list.read (visits list.read n rest) rest = readMany list.read n rest) ∧
          (∀ taken a rest, list.read taken = .ok (a,rest) →
            rest.length + list.least ≤ taken.length) ∧
          ∃ a, list.read (List.replicate list.least 0) = .ok (a,[])) ∧
      (∀ document rest, decode bytes = .ok (document,rest) →
        document.leastBytes + rest.length ≤ bytes.length ∧ document.size ≤ begun bytes) ∧
      (∀ n place, readBytes n place = readMany readByte n place ∧
        visits readByte n place ≤ place.length + 1) ∧
      begun bytes ≤ bytes.length / 8 + 2 := by
  refine ⟨fun _ _ h => ⟨h.mem_lists,h.reaches⟩,fun list _ => ?_,
    fun _ _ h => ⟨leastBytes_le h,size_le_begun h⟩,fun n place => ?_,begun_le bytes⟩
  · refine ⟨fun place n rest hreaches hcount => ?_,fun _ _ _ hread => list.consumes hread,list.zeros⟩
    have hvisits := visits_le list.consumes list.pos n rest
    refine ⟨fun hfew => ?_,hvisits,readMany_visits list.read n rest⟩
    obtain ⟨fault,hfault⟩ := list.consumes.starved hfew
    exact ⟨fault,hreaches.error (bind_eq_error_iff.mpr (Or.inr ⟨n,rest,hcount,hfault⟩))⟩
  · have hle := visits_le consumes_byte (by decide) n place
    rw [Nat.div_one] at hle
    exact ⟨congrFun (readBytes_eq_readMany n) place,hle⟩

/-- A call that claims as many arguments as a count can, and too few bytes for one of them. -/
def overdrawn : List UInt8 :=
  writeWord lengthWidth 2 ++ (Statement.constructing ⟨"a"⟩ "A" []).write ++
    writeWord indexWidth 1 ++ [0] ++ writeWord indexWidth 2 ++ writeText "a" ++ writeText "f" ++
    writeWord lengthWidth (256 ^ lengthWidth - 1) ++ List.replicate 12 0

/-- The count is reached in the second statement, and one look at an argument ends the decoding. Bytes
of which none can be spared are accepted. -/
theorem counts_within_bytes_overdrawn :
    CountAt overdrawn Argument.elements (overdrawn.drop 70) ∧
      readWord lengthWidth (overdrawn.drop 70) =
        .ok (256 ^ lengthWidth - 1,List.replicate 12 0) ∧
      12 < (256 ^ lengthWidth - 1) * 13 ∧ (∃ fault, decode overdrawn = .error fault) ∧
      visits Argument.read (256 ^ lengthWidth - 1) (List.replicate 12 0) ≤ 1 ∧
      begun overdrawn ≤ 13 ∧
      let filled := writeWord lengthWidth 1 ++ List.replicate 41 0
      let document : Document := ⟨[.plain .initialization (.construct "" [])],[],.empty⟩
      decode filled = .ok (document,[]) ∧ document.leastBytes + 0 ≤ filled.length ∧
        document.leastBytes = 49 ∧ filled.length = 49 := by
  have htarget : Identifier.read (overdrawn.drop 52) = .ok (⟨"a"⟩,overdrawn.drop 61) := rfl
  have hcall : Action.CountAt (overdrawn.drop 48) Argument.elements (overdrawn.drop 70) :=
    .invoke rfl htarget rfl
  have hearlier : readMany Statement.read 1 (overdrawn.drop 8) =
      .ok ([.constructing ⟨"a"⟩ "A" []],overdrawn.drop 43) := rfl
  have hphase : Phase.read (overdrawn.drop 43) = .ok (.configuration,overdrawn.drop 47) := rfl
  have hplace : CountAt overdrawn Argument.elements (overdrawn.drop 70) :=
    .action rfl Nat.one_lt_two hearlier hphase rfl hcall
  have hcount : readWord lengthWidth (overdrawn.drop 70) =
      .ok (256 ^ lengthWidth - 1,List.replicate 12 0) := rfl
  have hfew : 12 < (256 ^ lengthWidth - 1) * 13 := by decide
  have hfilled : decode (writeWord lengthWidth 1 ++ List.replicate 41 0) =
      .ok (⟨[.plain .initialization (.construct "" [])],[],.empty⟩,[]) := rfl
  obtain ⟨hcounts,hlists,_,_,hbegun⟩ := counts_within_bytes overdrawn
  obtain ⟨hlist,hreaches⟩ := hcounts _ _ hplace
  obtain ⟨hfault,hvisits,_⟩ := (hlists _ hlist).1 _ _ _ hreaches hcount
  obtain ⟨_,_,hbytes,_⟩ := counts_within_bytes (writeWord lengthWidth 1 ++ List.replicate 41 0)
  exact ⟨hplace,hcount,hfew,hfault hfew,hvisits,hbegun,hfilled,(hbytes _ _ hfilled).1,rfl,rfl⟩

end Document

end ObjectGraph
