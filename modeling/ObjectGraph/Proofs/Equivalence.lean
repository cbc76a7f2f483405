import ObjectGraph.Numeral.Positional
import ObjectGraph.Proofs.Equality
import ObjectGraph.Proofs.Schedule.Translation

/-! # Documents that compare equal

Two documents are equal if neither holds a NaN and if they differ at most in the signs of zeros. So
equality is symmetric and transitive, and a schedule cannot tell equal documents apart: it never looks at
a number. Their code differs in the signs of zeros, and only there.
-/
namespace ObjectGraph

section
variable {α : Type} [BEq α] {plain : α → Prop} {normal : α → α} {a b c : α}

/-- Values are equal if they are plain and have the same normal form. -/
def ComparesBy (plain : α → Prop) (normal : α → α) : Prop :=
  ∀ a b : α, (a == b) = true ↔ plain a ∧ plain b ∧ normal a = normal b

namespace ComparesBy

theorem comm (h : ComparesBy plain normal) (a b : α) : (a == b) = (b == a) := by
  rw [Bool.eq_iff_iff,h,h,eq_comm]
  exact and_left_comm

theorem trans (h : ComparesBy plain normal) (hab : (a == b) = true) (hbc : (b == c) = true) :
    (a == c) = true := by
  obtain ⟨ha,_,hleft⟩ := (h a b).mp hab
  obtain ⟨_,hc,hright⟩ := (h b c).mp hbc
  exact (h a c).mpr ⟨ha,hc,hleft.trans hright⟩

theorem option (h : ComparesBy plain normal) :
    ComparesBy (fun o : Option α => ∀ a ∈ o.toList, plain a) (Option.map normal) := by
  intro o p
  cases o with
  | none => cases p <;> simp
  | some a =>
    cases p with
    | none => simp
    | some b => simpa using h a b

theorem list (h : ComparesBy plain normal) :
    ComparesBy (fun l : List α => ∀ a ∈ l, plain a) (List.map normal) := by
  intro l m
  induction l generalizing m with
  | nil => cases m <;> simp
  | cons a rest ih =>
    cases m with
    | nil => simp
    | cons b others =>
      simp only [List.cons_beq_cons,Bool.and_eq_true,h a b,ih others,List.forall_mem_cons,
        List.map_cons,List.cons.injEq]
      tauto

end ComparesBy

end

namespace Binary64

/-- A zero without its sign, or any other number as it is. -/
def unsigned (x : Binary64) : Binary64 := if x.isZero then zero else x

theorem comparesBy : ComparesBy (fun x : Binary64 => x.isNaN = false) unsigned := by
  intro x y
  have hzero : zero.isZero = true := by decide
  simp only [beq_def,Bool.and_eq_true,Bool.or_eq_true,Bool.not_eq_true',decide_eq_true_eq,and_assoc]
  refine and_congr_right fun _ => and_congr_right fun _ => ?_
  unfold unsigned
  split <;> split <;> grind

/-- Beside its sign no bit of a zero is set. -/
theorem toNat_of_isZero {x : Binary64} (h : x.isZero = true) :
    x.bits.toNat = if x.isNegative then 1 <<< 63 else 0 := by
  have hlt := x.bits.toNat_lt
  simp only [isZero,exponentField,fraction,Bool.and_eq_true,beq_iff_eq,Nat.reduceShiftLeft] at h
  simp only [isNegative,decide_eq_true_eq,Nat.reduceShiftLeft]
  split <;> omega

theorem eq_of_isZero {x y : Binary64} (hx : x.isZero = true) (hy : y.isZero = true)
    (hsign : x.isNegative = y.isNegative) : x = y := by
  have hbits : x.bits = y.bits := by
    rw [← UInt64.toNat_inj,toNat_of_isZero hx,toNat_of_isZero hy,hsign]
  rcases x with ⟨bits⟩
  exact congrArg mk hbits

theorem text_of_isZero {x : Binary64} (h : x.isZero = true) :
    x.text = if x.isNegative then "-0" else "0" := by
  have hexponent : x.exponentField = 0 := by
    simp only [isZero,Bool.and_eq_true,beq_iff_eq] at h
    exact h.1
  have hspecial : (0 == specialExponent) = false := by decide
  simp only [text,magnitudeText,isNaN,isInfinite,hexponent,hspecial,h,Bool.false_and,
    Bool.false_eq_true,if_false,if_true]
  split <;> rfl

/-- All zeros are equal, and as texts they differ as their signs do. -/
theorem zeros {x y : Binary64} (hx : x.isZero = true) (hy : y.isZero = true) :
    (x == y) = true ∧ (x.text = y.text ↔ x.isNegative = y.isNegative) := by
  have hplain : ∀ {z : Binary64}, z.isZero = true → z.isNaN = false := by
    intro z hz
    simp only [isZero,Bool.and_eq_true,beq_iff_eq] at hz
    simp [isNaN,hz.2]
  refine ⟨(comparesBy x y).mpr ⟨hplain hx,hplain hy,by simp [unsigned,hx,hy]⟩,?_⟩
  rw [text_of_isZero hx,text_of_isZero hy]
  cases x.isNegative <;> cases y.isNegative <;> decide

theorem eq_of_beq {x y : Binary64} (h : (x == y) = true)
    (hsign : x.isZero = true → y.isZero = true → x.isNegative = y.isNegative) : x = y := by
  simp only [beq_def,Bool.and_eq_true,Bool.or_eq_true,decide_eq_true_eq] at h
  rcases h.2 with heq | ⟨hx,hy⟩
  · exact heq
  · exact eq_of_isZero hx hy (hsign hx hy)

/-- Numbers of which those that stand in the same place and are zeros have the same sign. -/
def SameZeros (xs ys : List Binary64) : Prop :=
  ∀ p ∈ xs.zip ys, p.1.isZero = true → p.2.isZero = true → p.1.isNegative = p.2.isNegative

instance (xs ys : List Binary64) : Decidable (SameZeros xs ys) :=
  inferInstanceAs (Decidable (∀ p ∈ xs.zip ys,
    p.1.isZero = true → p.2.isZero = true → p.1.isNegative = p.2.isNegative))

theorem sameZeros_append {xs xs' ys ys' : List Binary64} (h : xs.length = ys.length) :
    SameZeros (xs ++ xs') (ys ++ ys') ↔ SameZeros xs ys ∧ SameZeros xs' ys' := by
  rw [SameZeros,List.zip_append h,List.forall_mem_append]
  rfl

theorem option_eq_of_beq {o p : Option Binary64} (h : (o == p) = true)
    (hzeros : SameZeros o.toList p.toList) : o = p := by
  cases o with
  | none =>
    cases p with
    | none => rfl
    | some y => cases h
  | some x =>
    cases p with
    | none => cases h
    | some y => exact congrArg some (eq_of_beq h (hzeros (x,y) (List.mem_singleton_self _)))

theorem length_toList_of_beq {o p : Option Binary64} (h : (o == p) = true) :
    o.toList.length = p.toList.length := by
  obtain ⟨_,_,hnormal⟩ := (comparesBy.option o p).mp h
  have hlength := congrArg (List.length ∘ Option.toList) hnormal
  simpa [Option.toList_map] using hlength

end Binary64

/-- An action whose zeros have no signs. -/
def Action.unsigned : Action → Action
  | constrain first relation second multiplier constant =>
    .constrain first relation second (multiplier.map .unsigned) (constant.map .unsigned)
  | action => action

namespace Action

theorem comparesBy :
    ComparesBy (fun action : Action => ∀ x ∈ action.numbers, x.isNaN = false) unsigned := by
  intro a b
  change a.beq b = true ↔ _
  cases a with
  | constrain first relation second multiplier constant =>
    cases b with
    | constrain first' relation' second' multiplier' constant' =>
      have hnumber := Binary64.comparesBy.option
      simp only [Action.beq,Bool.and_eq_true,beq_iff_eq,hnumber multiplier multiplier',
        hnumber constant constant',numbers,unsigned,List.forall_mem_append,constrain.injEq]
      tauto
    | _ => simp [Action.beq,unsigned]
  | _ => cases b <;> simp [Action.beq,unsigned,numbers,and_assoc]

theorem eq_of_beq {a b : Action} (h : (a == b) = true)
    (hzeros : Binary64.SameZeros a.numbers b.numbers) : a = b := by
  obtain ⟨_,_,hnormal⟩ := (comparesBy a b).mp h
  cases a with
  | constrain first relation second multiplier constant =>
    cases b with
    | constrain first' relation' second' multiplier' constant' =>
      change Action.beq _ _ = true at h
      simp only [Action.beq,Bool.and_eq_true,beq_iff_eq] at h
      obtain ⟨⟨⟨⟨hfirst,hrelation⟩,hsecond⟩,hmultiplier⟩,hconstant⟩ := h
      have hboth := (Binary64.sameZeros_append
        (Binary64.length_toList_of_beq hmultiplier)).mp hzeros
      rw [hfirst,hrelation,hsecond,Binary64.option_eq_of_beq hmultiplier hboth.1,
        Binary64.option_eq_of_beq hconstant hboth.2]
    | _ => cases hnormal
  | _ =>
    cases b with
    | constrain first relation second multiplier constant => cases hnormal
    | _ => exact hnormal

theorem mentions_unsigned (action : Action) : action.unsigned.mentions = action.mentions := by
  cases action <;> rfl

end Action

def Statement.unsigned (statement : Statement) : Statement :=
  { statement with action := statement.action.unsigned }

theorem Statement.comparesBy : ComparesBy
    (fun statement : Statement => ∀ x ∈ statement.action.numbers, x.isNaN = false) unsigned := by
  intro s t
  change (s.phase == t.phase && s.declares == t.declares && s.action == t.action) = true ↔ _
  simp only [Bool.and_eq_true,beq_iff_eq,Action.comparesBy s.action t.action,unsigned,mk.injEq]
  tauto

def Document.unsigned (document : Document) : Document :=
  { document with statements := document.statements.map .unsigned }

theorem Document.comparesBy : ComparesBy (fun document : Document =>
    ∀ s ∈ document.statements, ∀ x ∈ s.action.numbers, x.isNaN = false) unsigned := by
  intro d e
  change (d.statements == e.statements && d.references == e.references &&
    d.registry == e.registry) = true ↔ _
  have hstatements := Statement.comparesBy.list d.statements e.statements
  simp only [Bool.and_eq_true,beq_iff_eq,hstatements,unsigned,mk.injEq]
  tauto

namespace Statement

theorem eq_of_beq {s t : Statement} (h : (s == t) = true)
    (hzeros : Binary64.SameZeros s.action.numbers t.action.numbers) : s = t := by
  change (s.phase == t.phase && s.declares == t.declares && s.action == t.action) = true at h
  simp only [Bool.and_eq_true,beq_iff_eq] at h
  rcases s with ⟨phase,declares,action⟩
  rcases t with ⟨phase',declares',action'⟩
  rw [mk.injEq]
  exact ⟨h.1.1,h.1.2,Action.eq_of_beq h.2 hzeros⟩

theorem list_eq_of_beq {l m : List Statement} (h : (l == m) = true)
    (hzeros : ∀ p ∈ l.zip m, Binary64.SameZeros p.1.action.numbers p.2.action.numbers) : l = m := by
  induction l generalizing m with
  | nil =>
    cases m with
    | nil => rfl
    | cons t others => cases h
  | cons s rest ih =>
    cases m with
    | nil => cases h
    | cons t others =>
      obtain ⟨hhead,htail⟩ := Bool.and_eq_true_iff.mp (List.cons_beq_cons.symm.trans h)
      obtain ⟨hs,hrest⟩ := List.forall_mem_cons.mp hzeros
      rw [eq_of_beq hhead hs,ih htail hrest]

end Statement

/-- Statements without the signs of zeros, under the same identifiers. -/
def Translation.ofSigns : Translation where
  identifier := id
  statement := .unsigned
  injective := Function.injective_id
  phase := fun _ => rfl
  declares := fun s => Option.map_id.symm ▸ rfl
  dependencies := fun s => by
    rw [List.map_id]
    exact congrArg List.eraseDups s.action.mentions_unsigned

theorem Reference.rename_id : Reference.rename id = id := rfl

theorem Leftover.rename_id : Leftover.rename id = id := by
  funext entry
  rcases entry with ⟨phase,declares,dependencies⟩
  simp only [rename,Option.map_id,List.map_id,id]

theorem Failure.rename_id : Failure.rename id = id := by
  funext failure
  cases failure with
  | duplicate x count => rfl
  | unresolved remaining => simp only [rename,Leftover.rename_id,List.map_id,id]

namespace Document
variable {a b c : Document} {policy : Policy}

/-- Documents whose statements, one by one, have the same signs of zeros. -/
def SameZeros (a b : Document) : Prop :=
  ∀ p ∈ a.statements.zip b.statements, Binary64.SameZeros p.1.action.numbers p.2.action.numbers

instance (a b : Document) : Decidable (SameZeros a b) :=
  inferInstanceAs (Decidable (∀ p ∈ a.statements.zip b.statements,
    Binary64.SameZeros p.1.action.numbers p.2.action.numbers))

theorem eq_of_beq (h : (a == b) = true) (hzeros : a.SameZeros b) : a = b := by
  change (a.statements == b.statements && a.references == b.references &&
    a.registry == b.registry) = true at h
  simp only [Bool.and_eq_true,beq_iff_eq] at h
  rcases a with ⟨statements,references,registry⟩
  rcases b with ⟨statements',references',registry'⟩
  rw [mk.injEq]
  exact ⟨Statement.list_eq_of_beq h.1.1 hzeros,h.1.2,h.2⟩

theorem translates_unsigned (document : Document) :
    Translation.ofSigns.Translates document document.unsigned :=
  ⟨rfl,((congrArg (List.map · document.references) Reference.rename_id).trans
    (List.map_id _)).symm⟩

theorem failure_unsigned (document : Document) (policy : Policy) :
    (document.unsigned.run policy).failure = (document.run policy).failure := by
  have hfailure := document.translates_unsigned.failure policy
  rw [hfailure]
  exact (congrArg (Option.map · _) Failure.rename_id).trans (congrFun Option.map_id _)

/-- A schedule does not tell equal documents apart. -/
theorem schedule_of_beq (h : (a == b) = true) (policy : Policy) :
    (a.run policy).emitted.map (·.position) = (b.run policy).emitted.map (·.position) ∧
      (a.run policy).failure = (b.run policy).failure := by
  obtain ⟨_,_,hnormal⟩ := (comparesBy a b).mp h
  constructor
  · rw [← a.translates_unsigned.positions policy,hnormal,b.translates_unsigned.positions policy]
  · rw [← a.failure_unsigned policy,hnormal,b.failure_unsigned policy]

/-- Equality of documents is symmetric and transitive, and only a NaN keeps a document from being equal to
itself. Equal documents emit the same statements in the same order or fail for the same reason. Their
listings are the same if the signs of their zeros are, which equality does not look at and code shows. -/
theorem schedule_of_equal (a b c : Document) :
    (a == b) = (b == a) ∧
      ((a == b) = true → (b == c) = true → (a == c) = true) ∧
      ((a == a) = true ↔ ∀ s ∈ a.statements, ∀ x ∈ s.action.numbers, x.isNaN = false) ∧
      ((a == b) = true → ∀ policy,
        (a.run policy).emitted.map (·.position) = (b.run policy).emitted.map (·.position) ∧
          (∀ failure, a.listing policy = .error failure ↔ b.listing policy = .error failure) ∧
          (a.SameZeros b → a.listing policy = b.listing policy)) ∧
      ∀ x y : Binary64, x.isZero = true → y.isZero = true →
        (x == y) = true ∧ (x.text = y.text ↔ x.isNegative = y.isNegative) := by
  refine ⟨comparesBy.comm a b,comparesBy.trans,beq_self_iff,fun h policy => ?_,
    fun x y => Binary64.zeros⟩
  obtain ⟨hpositions,hfailure⟩ := schedule_of_beq h policy
  refine ⟨hpositions,fun failure => ?_,fun hzeros => ?_⟩
  · rw [listing,listing,Run.listing_eq_error_iff,Run.listing_eq_error_iff,hfailure]
  · rw [eq_of_beq h hzeros]

/-- A label that is held at a distance, with entries for the registry as they come. -/
def pinned (distance : Binary64) (entries : List (Identifier × Registration)) : Document where
  statements := [
    .declaring ⟨"label"⟩ (.construct "Label" []),
    .plain .constraints (.constrain ⟨⟨"label"⟩,"top"⟩ .equal none none (some distance))]
  references := [.required ⟨"label"⟩]
  registry := .ofList entries

/-- Three equal documents, of which one has other code, and a document that is not equal to itself. -/
theorem schedule_pinned :
    let negative : Binary64 := ⟨0x8000000000000000⟩
    let entries : List (Identifier × Registration) :=
      [(⟨"label"⟩,⟨"Label","title"⟩),(⟨"icon"⟩,⟨"Icon","icon"⟩)]
    let first := pinned .zero entries
    let second := pinned negative entries
    let third := pinned .zero entries.reverse
    (first == second) = true ∧ (second == third) = true ∧ (first == third) = true ∧
      (first.run .retain).emitted.map (·.position) =
        (second.run .retain).emitted.map (·.position) ∧
      first.listing .retain =
        .ok ["let title = Label()","title.top.constraint(equalToConstant: 0).isActive = true"] ∧
      second.listing .retain =
        .ok ["let title = Label()","title.top.constraint(equalToConstant: -0).isActive = true"] ∧
      first.SameZeros third ∧ first.listing .retain = third.listing .retain ∧
      Binary64.zero.isZero = true ∧ negative.isZero = true ∧ (Binary64.zero == negative) = true ∧
      (pinned ⟨0x7FF8000000000000⟩ [] == pinned ⟨0x7FF8000000000000⟩ []) = false := by
  intro negative entries first second third
  have hfirst : (first == second) = true := by decide +kernel
  have hsecond : (second == third) = true := by decide +kernel
  have hzeros : first.SameZeros third := by decide +kernel
  have hzero : Binary64.zero.isZero = true := by decide
  have hnegative : negative.isZero = true := by decide
  obtain ⟨_,htrans,_,hschedule,hnumbers⟩ := schedule_of_equal first second third
  have hthird := htrans hfirst hsecond
  obtain ⟨_,_,_,hsame,_⟩ := schedule_of_equal first third first
  exact ⟨hfirst,hsecond,hthird,(hschedule hfirst .retain).1,by decide +kernel,by decide +kernel,
    hzeros,(hsame hthird .retain).2.2 hzeros,hzero,hnegative,
    (hnumbers .zero negative hzero hnegative).1,by decide +kernel⟩

end Document

end ObjectGraph
