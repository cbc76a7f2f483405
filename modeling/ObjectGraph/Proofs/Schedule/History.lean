import ObjectGraph.Proofs.Schedule.Conservation

/-! # Histories

All that passes do to a document is told by the identifiers that they have declared and those whose
declaration they have dropped. A history names them, and a document has one state after a history. A
look finds a declaration there as the history says, and it leads to the state after a longer history.
-/
namespace ObjectGraph

/-- Whether a statement is configuration that depends on `x` and on nothing else. -/
def Statement.configures (statement : Statement) (x : Identifier) : Bool :=
  statement.phase == .configuration && statement.action.needsOnly x

theorem Statement.configures_eq_true_iff {statement : Statement} {x : Identifier} :
    statement.configures x = true ↔
      statement.phase = .configuration ∧ statement.dependencies = [x] := by
  simp [configures,Action.needsOnly_eq_true_iff,dependencies]

theorem Statement.eq_of_configures {statement : Statement} {x y : Identifier}
    (hx : statement.configures x = true) (hy : statement.configures y = true) : x = y := by
  rw [configures,Bool.and_eq_true] at hx hy
  exact Action.eq_of_needsOnly hx.2 hy.2

theorem Statement.introduces_of_configures {statement : Statement} {x : Identifier}
    (h : statement.configures x = true) (y : Identifier) : statement.introduces y = false := by
  rw [configures_eq_true_iff] at h
  simp [introduces,Phase.mayDeclare,h.1]

/-- What passes have done: the identifiers that they declared, the latest first, and those whose
declaration they dropped, in the order of the drops. -/
structure History where
  declared : List Identifier
  dropped : List Identifier

namespace History

def start : History := ⟨[],[]⟩

def declare (x : Identifier) (history : History) : History :=
  { history with declared := x :: history.declared }

def drop (x : Identifier) (history : History) : History :=
  { history with dropped := history.dropped ++ [x] }

/-- Whether a statement has been emitted or dropped. -/
def handles (history : History) (statement : Statement) : Bool :=
  history.declared.any statement.introduces || history.dropped.any statement.introduces ||
    history.declared.any statement.configures

variable {history : History} {statement : Statement} {x : Identifier}

@[simp] theorem handles_declare : (history.declare x).handles statement =
    (history.handles statement || statement.introduces x || statement.configures x) := by
  simp only [handles,declare,List.any_cons]
  cases statement.introduces x <;> cases statement.configures x <;> simp

@[simp] theorem handles_drop : (history.drop x).handles statement =
    (history.handles statement || statement.introduces x) := by
  simp only [handles,drop,List.any_append,List.any_cons,List.any_nil,Bool.or_false]
  cases statement.introduces x <;> simp

theorem handles_of_introduces (h : statement.introduces x = true) :
    history.handles statement = true ↔ x ∈ history.declared ∨ x ∈ history.dropped := by
  have hany : ∀ xs : List Identifier, xs.any statement.introduces = true ↔ x ∈ xs := by
    intro xs
    rw [List.any_eq_true]
    exact ⟨fun ⟨y,hy,hs⟩ => Statement.eq_of_introduces hs h ▸ hy,fun hx => ⟨x,hx,h⟩⟩
  have hconfigures : history.declared.any statement.configures = false := by
    refine List.any_eq_false.mpr fun y _ hy => ?_
    rw [Statement.introduces_of_configures hy x] at h
    cases h
  simp only [handles,hconfigures,Bool.or_false,Bool.or_eq_true,hany]

theorem handles_of_configures (h : statement.configures x = true) :
    history.handles statement = true ↔ x ∈ history.declared := by
  have hintroduces : ∀ xs : List Identifier, xs.any statement.introduces = false :=
    fun xs => List.any_eq_false.mpr fun y _ => by simp [Statement.introduces_of_configures h y]
  simp only [handles,hintroduces,Bool.false_or,List.any_eq_true]
  exact ⟨fun ⟨y,hy,hs⟩ => Statement.eq_of_configures hs h ▸ hy,fun hx => ⟨x,hx,h⟩⟩

theorem handles_of_initialization (h : statement.phase = .initialization) :
    history.handles statement = true ↔
      ∃ x, (x ∈ history.declared ∨ x ∈ history.dropped) ∧ statement.introduces x = true := by
  have hconfigures : history.declared.any statement.configures = false :=
    List.any_eq_false.mpr fun y _ => by simp [Statement.configures,h]
  simp only [handles,hconfigures,Bool.or_false,Bool.or_eq_true,List.any_eq_true,or_and_right,
    exists_or]

/-- A statement outside the initialization has been handled as the configuration of an identifier. -/
theorem exists_configures (hphase : statement.phase ≠ .initialization)
    (h : history.handles statement = true) :
    ∃ x ∈ history.declared, statement.configures x = true := by
  have hintroduces : ∀ xs : List Identifier, xs.any statement.introduces = false :=
    fun xs => List.any_eq_false.mpr fun y _ => by simp [Statement.introduces_eq_true_iff,hphase]
  simpa only [handles,hintroduces,Bool.false_or,List.any_eq_true] using h

end History

namespace Document
variable {document : Document} {policy : Policy} {history : History} {x : Identifier} {p : Placed}

/-- The statements that declare `x`. -/
def declarationsOf (document : Document) (x : Identifier) : List Placed :=
  document.placed.filter (·.statement.introduces x)

/-- The configuration that depends on `x` and on nothing else. -/
def configurationOf (document : Document) (x : Identifier) : List Placed :=
  document.placed.filter (·.statement.configures x)

/-- The state of a document after a history. -/
def after (document : Document) (history : History) : State where
  pending := document.placed.filter (!history.handles ·.statement)
  discarded := history.dropped.flatMap document.declarationsOf
  declared := history.declared ++ document.supplied

theorem mem_declarationsOf : p ∈ document.declarationsOf x ↔
    p ∈ document.placed ∧ p.statement.introduces x = true := List.mem_filter

theorem length_declarationsOf (document : Document) (x : Identifier) :
    (document.declarationsOf x).length = document.statements.countP (·.introduces x) := by
  rw [← document.map_statement_placed,List.countP_map,List.countP_eq_length_filter]
  rfl

theorem exists_placed {s : Statement} (hs : s ∈ document.statements) :
    ∃ p ∈ document.placed, p.statement = s := by
  rw [← document.map_statement_placed] at hs
  exact List.mem_map.mp hs

theorem mem_statements (hp : p ∈ document.placed) : p.statement ∈ document.statements := by
  rw [← document.map_statement_placed]
  exact List.mem_map_of_mem hp

theorem declares_of_declarationsOf (hp : document.declarationsOf x = [p]) :
    p.statement ∈ document.statements ∧ p.statement.introduces x = true := by
  have hmem : p ∈ document.declarationsOf x := hp ▸ List.mem_singleton_self p
  obtain ⟨hplaced,hintroduces⟩ := mem_declarationsOf.mp hmem
  exact ⟨mem_statements hplaced,hintroduces⟩

theorem eq_of_declarationsOf {q : Placed} (hp : document.declarationsOf x = [p])
    (hq : q ∈ document.placed) (hqx : q.statement.introduces x = true) : q = p := by
  have hmem := mem_declarationsOf.mpr ⟨hq,hqx⟩
  rw [hp] at hmem
  exact List.mem_singleton.mp hmem

theorem start_eq_after (document : Document) : State.start document = document.after .start := by
  have hall : document.placed.filter (fun p => !History.start.handles p.statement) =
      document.placed := List.filter_eq_self.mpr fun _ _ => rfl
  simp only [after,hall]
  rfl

theorem declarationsOf_after (document : Document) (history : History) (x : Identifier) :
    (document.after history).declarationsOf x =
      if x ∈ history.declared ∨ x ∈ history.dropped then [] else document.declarationsOf x := by
  simp only [State.declarationsOf,after,List.filter_filter,declarationsOf]
  split
  · next hx =>
    refine List.filter_eq_nil_iff.mpr fun p _ hp => ?_
    obtain ⟨hintroduces,hopen⟩ := Bool.and_eq_true_iff.mp hp
    rw [(History.handles_of_introduces hintroduces).mpr hx] at hopen
    cases hopen
  · next hx =>
    apply List.filter_congr
    intro p _
    cases hintroduces : p.statement.introduces x with
    | false => rfl
    | true =>
      have hopen := mt (History.handles_of_introduces hintroduces).mp hx
      simpa using hopen

theorem permits_after {statement : Statement} :
    (document.after history).permits statement = true ↔
      ∀ y ∈ statement.dependencies, y ∈ history.declared ∨ y ∈ document.supplied := by
  simp [State.permits,State.isDeclared,after]

/-- A statement is found ready after a history just when it is the only declaration of a new
identifier and all that it depends on is declared or supplied. -/
theorem find_after_eq_ready_iff : (document.after history).find x = .ready p ↔
    (x ∉ history.declared ∧ x ∉ history.dropped) ∧ document.declarationsOf x = [p] ∧
      ∀ y ∈ p.statement.dependencies, y ∈ history.declared ∨ y ∈ document.supplied := by
  rw [State.find_eq_ready_iff,declarationsOf_after,permits_after]
  split
  · next hx => simp [← not_or,hx]
  · next hx => simp [← not_or,hx]

theorem find_after_of_blocked (h : (document.after history).find x = .blocked p) :
    (x ∉ history.declared ∧ x ∉ history.dropped) ∧ document.declarationsOf x = [p] := by
  rw [State.find_eq_blocked_iff,declarationsOf_after] at h
  split at h <;> simp_all

theorem pendingBut_after (document : Document) (history : History) (x : Identifier) :
    (document.after history).pendingBut x =
      document.placed.filter
        (fun p => !(history.handles p.statement || p.statement.introduces x)) := by
  simp only [State.pendingBut,after,List.filter_filter,Bool.not_or,Bool.and_comm]

/-- A declaration that is ready takes a document to the history with its identifier. -/
theorem emit_after (policy : Policy) (h : (document.after history).find x = .ready p) :
    (document.after history).emit policy x =
      (document.configurationOf x,document.after (history.declare x)) := by
  obtain ⟨⟨hdeclared,_⟩,_⟩ := find_after_eq_ready_iff.mp h
  have hstate : ((document.after history).declare policy x).2 =
      ⟨(document.after history).pendingBut x,(document.after history).discarded,
        x :: (document.after history).declared⟩ := by
    simp [State.declare,h,State.settle]
  rw [State.emit,hstate,pendingBut_after]
  apply Prod.ext
  · simp only [State.configure,State.take,List.filter_filter,configurationOf]
    apply List.filter_congr
    intro p _
    change (p.statement.configures x && _) = _
    cases hconfigures : p.statement.configures x with
    | false => rfl
    | true =>
      have hopen := mt (History.handles_of_configures hconfigures).mp hdeclared
      simp [hopen,Statement.introduces_of_configures hconfigures x]
  · simp only [State.configure,State.take,List.filter_filter,after,State.mk.injEq]
    refine ⟨?_,rfl,rfl⟩
    apply List.filter_congr
    intro p _
    rw [History.handles_declare,Bool.not_or _ (p.statement.configures x),Bool.and_comm]
    rfl

theorem drop_after (h : (document.after history).find x = .blocked p) :
    ((document.after history).declare .discard x).2 = document.after (history.drop x) := by
  have hp := (find_after_of_blocked h).2
  have hstate : ((document.after history).declare .discard x).2 =
      ⟨(document.after history).pendingBut x,(document.after history).discarded ++ [p],
        (document.after history).declared⟩ := by
    simp [State.declare,h,State.settle]
  rw [hstate,pendingBut_after]
  simp only [after,History.handles_drop,State.mk.injEq]
  refine ⟨trivial,?_,rfl⟩
  simp [History.drop,hp]

end Document

end ObjectGraph
