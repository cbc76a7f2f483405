import ObjectGraph.Schedule.Run

/-! # Turns of a schedule

Declaration passes are a chain of turns. In a turn an identifier of the worklist is looked up, and
its declaration is emitted with its configuration or, if it is blocked, left to the policy. What every
turn preserves, all passes together preserve.
-/
namespace ObjectGraph

theorem Statement.eq_of_introduces {statement : Statement} {x y : Identifier}
    (hx : statement.introduces x = true) (hy : statement.introduces y = true) : x = y := by
  rw [introduces_eq_true_iff] at hx hy
  exact Option.some.inj (hx.2.symm.trans hy.2)

namespace Progress
variable (events : List Event) (x : Identifier) (progress : Progress)

@[simp] theorem events_after : (progress.after events).events = events ++ progress.events := rfl
@[simp] theorem state_after : (progress.after events).state = progress.state := rfl
@[simp] theorem blocked_after : (progress.after events).blocked = progress.blocked := rfl
@[simp] theorem failure_after : (progress.after events).failure = progress.failure := rfl
@[simp] theorem events_waiting : (progress.waiting x).events = progress.events := rfl
@[simp] theorem state_waiting : (progress.waiting x).state = progress.state := rfl
@[simp] theorem blocked_waiting : (progress.waiting x).blocked = x :: progress.blocked := rfl
@[simp] theorem failure_waiting : (progress.waiting x).failure = progress.failure := rfl

end Progress

namespace State
variable {policy : Policy} {worklist rest : List Identifier} {state : State} {x : Identifier}
variable {p : Placed} {count : Nat}

theorem find_eq_absent_iff : state.find x = .absent ↔ state.declarationsOf x = [] := by
  rcases h : state.declarationsOf x with _ | ⟨q,_ | ⟨r,others⟩⟩
  · simp [find,h]
  · cases hq : state.permits q.statement <;> simp [find,h,hq]
  · simp [find,h]

theorem find_eq_ready_iff : state.find x = .ready p ↔
    state.declarationsOf x = [p] ∧ state.permits p.statement = true := by
  rcases h : state.declarationsOf x with _ | ⟨q,_ | ⟨r,others⟩⟩
  · simp [find,h]
  · cases hq : state.permits q.statement <;> simp [find,h,hq] <;> grind
  · simp [find,h]

theorem mem_of_ready (h : state.find x = .ready p) : p ∈ state.declarationsOf x :=
  (find_eq_ready_iff.mp h).1 ▸ List.mem_singleton_self p

theorem introduces_of_ready (h : state.find x = .ready p) : p.statement.introduces x = true :=
  (List.mem_filter.mp (mem_of_ready h)).2

theorem phase_of_ready (h : state.find x = .ready p) : p.statement.phase = .initialization :=
  (Statement.introduces_eq_true_iff.mp (introduces_of_ready h)).1

theorem find_eq_blocked_iff : state.find x = .blocked p ↔
    state.declarationsOf x = [p] ∧ state.permits p.statement = false := by
  rcases h : state.declarationsOf x with _ | ⟨q,_ | ⟨r,others⟩⟩
  · simp [find,h]
  · cases hq : state.permits q.statement <;> simp [find,h,hq] <;> grind
  · simp [find,h]

theorem find_eq_duplicate_iff : state.find x = .duplicate count ↔
    (state.declarationsOf x).length = count ∧ 1 < count := by
  rcases h : state.declarationsOf x with _ | ⟨q,_ | ⟨r,others⟩⟩
  · simp [find,h]
    omega
  · cases hq : state.permits q.statement <;> simp [find,h,hq] <;> omega
  · simp [find,h]
    omega

/-- The configuration that is taken right behind the declaration of `x`, and the state after it. -/
def emit (policy : Policy) (x : Identifier) (state : State) : List Placed × State :=
  (state.declare policy x).2.configure x

theorem pass_of_absent (h : state.find x = .absent) :
    state.pass policy (x :: rest) = (state.pass policy rest).waiting x := by
  simp [pass,declare,h,settle]

theorem pass_of_ready (h : state.find x = .ready p) : state.pass policy (x :: rest) =
    ((state.emit policy x).2.pass policy rest).after
      [.declared x p,.configured x (state.emit policy x).1] := by
  simp [pass,emit,declare,h]

theorem pass_of_blocked (h : state.find x = .blocked p) : state.pass policy (x :: rest) =
    (((state.declare policy x).2.pass policy rest).waiting x).after [.notReady policy x p] := by
  simp [pass,declare,h]

theorem pass_of_duplicate (h : state.find x = .duplicate count) : state.pass policy (x :: rest) =
    ⟨[],(state.declare policy x).2,[],some (.duplicate x count)⟩ := by
  simp [pass,declare,h]

/-- `Turns policy worklist s events t`: turns at identifiers of the worklist lead from `s` to `t`,
and `events` is what happens. -/
inductive Turns (policy : Policy) (worklist : List Identifier) :
    State → List Event → State → Prop
  | refl (s : State) : Turns policy worklist s [] s
  | declared {s t : State} {x : Identifier} {p : Placed} {events : List Event} (hx : x ∈ worklist)
      (hfind : s.find x = .ready p) (later : Turns policy worklist (s.emit policy x).2 events t) :
      Turns policy worklist s
        (.declared x p :: .configured x (s.emit policy x).1 :: events) t
  | notReady {s t : State} {x : Identifier} {p : Placed} {events : List Event} (hx : x ∈ worklist)
      (hfind : s.find x = .blocked p)
      (later : Turns policy worklist (s.declare policy x).2 events t) :
      Turns policy worklist s (.notReady policy x p :: events) t
  | passEnded {s t : State} {events : List Event} (number resolved blocked : Nat)
      (later : Turns policy worklist s events t) :
      Turns policy worklist s (.passEnded number resolved blocked :: events) t

theorem Turns.trans {s t u : State} {events others : List Event}
    (h : Turns policy worklist s events t) (hu : Turns policy worklist t others u) :
    Turns policy worklist s (events ++ others) u := by
  induction h with
  | refl => exact hu
  | declared hx hfind _ ih => exact .declared hx hfind (ih hu)
  | notReady hx hfind _ ih => exact .notReady hx hfind (ih hu)
  | passEnded number resolved blocked _ ih => exact .passEnded number resolved blocked (ih hu)

theorem declarationsOf_sublist {s t : State} (h : t.pending.Sublist s.pending) (x : Identifier) :
    (t.declarationsOf x).Sublist (s.declarationsOf x) := h.filter _

/-- A look for `x` takes from the pending statements all that declare it, or nothing. -/
theorem declare_pending (policy : Policy) (x : Identifier) (state : State) :
    (state.declare policy x).2.pending = state.pending ∨
      (state.declare policy x).2.pending = state.pendingBut x := by
  unfold declare settle
  cases state.find x with
  | absent => exact Or.inl rfl
  | ready p => exact Or.inr rfl
  | blocked p =>
    cases policy with
    | retain => exact Or.inl rfl
    | discard => exact Or.inr rfl
  | duplicate count =>
    cases policy with
    | retain => exact Or.inl rfl
    | discard => exact Or.inr rfl

theorem declare_pending_sublist (policy : Policy) (x : Identifier) (state : State) :
    (state.declare policy x).2.pending.Sublist state.pending := by
  rcases declare_pending policy x state with h | h
  · exact h ▸ .refl _
  · exact h ▸ List.filter_sublist

theorem emit_pending_sublist (policy : Policy) (x : Identifier) (state : State) :
    (state.emit policy x).2.pending.Sublist state.pending :=
  List.filter_sublist.trans (declare_pending_sublist policy x state)

theorem Turns.pending_sublist {s t : State} {events : List Event}
    (h : Turns policy worklist s events t) : t.pending.Sublist s.pending := by
  induction h with
  | refl => exact .refl _
  | declared _ _ _ ih => exact ih.trans (emit_pending_sublist _ _ _)
  | notReady _ _ _ ih => exact ih.trans (declare_pending_sublist _ _ _)
  | passEnded _ _ _ _ ih => exact ih

/-- Once emitted, an identifier has no pending declaration any more. -/
theorem declarationsOf_emit (h : state.find x = .ready p) :
    (state.emit policy x).2.declarationsOf x = [] := by
  have hd : (state.declare policy x).2.declarationsOf x = [] := by
    simp [declare,h,settle,declarationsOf,pendingBut]
  have hle := declarationsOf_sublist (t := (state.emit policy x).2) List.filter_sublist x
  rw [hd] at hle
  exact List.sublist_nil.mp hle

/-! The passes of a worklist as a chain of turns. -/

theorem pass_blocked_sublist (policy : Policy) (identifiers : List Identifier) (state : State) :
    (state.pass policy identifiers).blocked.Sublist identifiers := by
  induction identifiers generalizing state with
  | nil => exact .slnil
  | cons x rest ih =>
    cases h : state.find x with
    | absent => rw [pass_of_absent h]; exact (ih state).cons_cons x
    | ready p => rw [pass_of_ready h]; exact (ih _).cons x
    | blocked p => rw [pass_of_blocked h]; exact (ih _).cons_cons x
    | duplicate count => rw [pass_of_duplicate h]; exact List.nil_sublist _

theorem pass_pending_sublist (policy : Policy) (identifiers : List Identifier) (state : State) :
    (state.pass policy identifiers).state.pending.Sublist state.pending := by
  induction identifiers generalizing state with
  | nil => exact .refl _
  | cons x rest ih =>
    cases h : state.find x with
    | absent => rw [pass_of_absent h]; exact ih state
    | ready p => rw [pass_of_ready h]; exact (ih _).trans (emit_pending_sublist policy x state)
    | blocked p => rw [pass_of_blocked h]; exact (ih _).trans (declare_pending_sublist policy x state)
    | duplicate count => rw [pass_of_duplicate h]; exact declare_pending_sublist policy x state

theorem pass_turns {identifiers : List Identifier} (hsub : identifiers ⊆ worklist)
    (hnone : (state.pass policy identifiers).failure = none) :
    Turns policy worklist state (state.pass policy identifiers).events
      (state.pass policy identifiers).state := by
  induction identifiers generalizing state with
  | nil => exact .refl state
  | cons x rest ih =>
    have hx : x ∈ worklist := hsub List.mem_cons_self
    have hrest : rest ⊆ worklist := fun y hy => hsub (List.mem_cons_of_mem x hy)
    cases h : state.find x with
    | absent =>
      rw [pass_of_absent h] at hnone ⊢
      exact ih hrest hnone
    | ready p =>
      rw [pass_of_ready h] at hnone ⊢
      exact .declared hx h (ih hrest hnone)
    | blocked p =>
      rw [pass_of_blocked h] at hnone ⊢
      exact .notReady hx h (ih hrest hnone)
    | duplicate count => simp [pass_of_duplicate h] at hnone

theorem passes_turns {number : Nat} {identifiers : List Identifier} (hsub : identifiers ⊆ worklist)
    (hnone : (state.passes policy number identifiers).failure = none) :
    Turns policy worklist state (state.passes policy number identifiers).events
      (state.passes policy number identifiers).state := by
  fun_induction passes policy number identifiers state with
  | case1 => exact .refl _
  | case2 number identifiers state _ done hfailed => simp [hnone] at hfailed
  | case3 number identifiers state _ done hfailed resolved ended hlt ih =>
    have hdone : done.failure = none := by simpa using hfailed
    have hblocked : done.blocked ⊆ worklist :=
      fun y hy => hsub ((pass_blocked_sublist policy identifiers state).subset hy)
    simp only [Progress.events_after,Progress.state_after,ended,List.append_assoc]
    exact (pass_turns hsub hdone).trans (.passEnded _ _ _ (ih hblocked hnone))
  | case4 number identifiers state _ done hfailed resolved ended hlt =>
    exact (pass_turns hsub hnone).trans (.passEnded _ _ _ (.refl _))

/-- Passes fail for nothing but several pending declarations of an identifier on the worklist. -/
theorem pass_failure {identifiers : List Identifier} {failure : Failure}
    (hsome : (state.pass policy identifiers).failure = some failure) :
    ∃ x ∈ identifiers, ∃ count, failure = .duplicate x count ∧ 1 < count ∧
      count ≤ (state.declarationsOf x).length := by
  induction identifiers generalizing state with
  | nil => simp [pass] at hsome
  | cons x rest ih =>
    have hnext : ∀ s : State, s.pending.Sublist state.pending →
        (s.pass policy rest).failure = some failure → ∃ y ∈ x :: rest, ∃ count,
          failure = .duplicate y count ∧ 1 < count ∧ count ≤ (state.declarationsOf y).length := by
      intro s hs hfail
      obtain ⟨y,hy,count,hf,hcount,hle⟩ := ih hfail
      exact ⟨y,List.mem_cons_of_mem x hy,count,hf,hcount,
        Nat.le_trans hle (declarationsOf_sublist hs y).length_le⟩
    cases h : state.find x with
    | absent =>
      rw [pass_of_absent h] at hsome
      exact hnext _ (.refl _) hsome
    | ready p =>
      rw [pass_of_ready h] at hsome
      exact hnext _ (emit_pending_sublist policy x state) hsome
    | blocked p =>
      rw [pass_of_blocked h] at hsome
      exact hnext _ (declare_pending_sublist policy x state) hsome
    | duplicate count =>
      obtain ⟨hlength,hcount⟩ := find_eq_duplicate_iff.mp h
      rw [pass_of_duplicate h] at hsome
      exact ⟨x,List.mem_cons_self,count,(Option.some.inj hsome).symm,hcount,
        Nat.le_of_eq hlength.symm⟩

theorem passes_failure {number : Nat} {identifiers : List Identifier} {failure : Failure}
    (hsome : (state.passes policy number identifiers).failure = some failure) :
    ∃ x ∈ identifiers, ∃ count, failure = .duplicate x count ∧ 1 < count ∧
      count ≤ (state.declarationsOf x).length := by
  fun_induction passes policy number identifiers state with
  | case1 => simp at hsome
  | case2 number identifiers state _ done hfailed => exact pass_failure hsome
  | case3 number identifiers state _ done hfailed resolved ended hlt ih =>
    have hdone : done.failure = none := by simpa using hfailed
    obtain ⟨x,hx,count,hf,hcount,hle⟩ := ih hsome
    have hpending := pass_pending_sublist policy identifiers state
    exact ⟨x,(pass_blocked_sublist policy identifiers state).subset hx,count,hf,hcount,
      Nat.le_trans hle (declarationsOf_sublist hpending x).length_le⟩
  | case4 number identifiers state _ done hfailed resolved ended hlt => exact pass_failure hsome

/-- Whether a pending statement declares `x`. -/
def awaits (state : State) (x : Identifier) : Bool := !(state.declarationsOf x).isEmpty

theorem awaits_eq_false_iff : state.awaits x = false ↔ state.declarationsOf x = [] := by
  simp [awaits]

theorem awaits_eq_false_iff_absent : state.awaits x = false ↔ state.find x = .absent :=
  awaits_eq_false_iff.trans find_eq_absent_iff.symm

theorem awaits_of_sublist {s t : State} (h : t.pending.Sublist s.pending)
    (hx : s.awaits x = false) : t.awaits x = false := by
  have hle := declarationsOf_sublist h x
  rw [awaits_eq_false_iff.mp hx,List.sublist_nil] at hle
  exact awaits_eq_false_iff.mpr hle

/-- An identifier leaves the worklist only when it has no pending declaration any more. -/
theorem pass_blocked_awaits {identifiers : List Identifier}
    (hnone : (state.pass policy identifiers).failure = none) :
    (state.pass policy identifiers).blocked.filter (state.pass policy identifiers).state.awaits =
      identifiers.filter (state.pass policy identifiers).state.awaits := by
  induction identifiers generalizing state with
  | nil => rfl
  | cons x rest ih =>
    cases h : state.find x with
    | absent =>
      rw [pass_of_absent h] at hnone ⊢
      simp only [Progress.state_waiting,Progress.blocked_waiting,List.filter_cons,ih hnone]
    | ready p =>
      rw [pass_of_ready h] at hnone ⊢
      have hpending := pass_pending_sublist policy rest (state.emit policy x).2
      have hgone := awaits_of_sublist hpending (awaits_eq_false_iff.mpr (declarationsOf_emit h))
      rw [Progress.state_after,Progress.blocked_after,List.filter_cons_of_neg (by simp [hgone])]
      exact ih hnone
    | blocked p =>
      rw [pass_of_blocked h] at hnone ⊢
      simp only [Progress.state_after,Progress.blocked_after,Progress.state_waiting,
        Progress.blocked_waiting,List.filter_cons,ih hnone]
    | duplicate count => simp [pass_of_duplicate h] at hnone

theorem declare_of_blocked_retain (h : state.find x = .blocked p) :
    (state.declare .retain x).2 = state := by
  simp [declare,h,settle]

/-- A pass that resolves nothing has met no declaration that was ready. Under retention it has
changed nothing, either. -/
theorem pass_fruitless {identifiers : List Identifier}
    (hnone : (state.pass .retain identifiers).failure = none)
    (hlength : identifiers.length ≤ (state.pass .retain identifiers).blocked.length) :
    (state.pass .retain identifiers).state = state ∧
      ∀ x ∈ identifiers, state.find x = .absent ∨ ∃ p, state.find x = .blocked p := by
  induction identifiers with
  | nil => simp [pass]
  | cons y rest ih =>
    cases h : state.find y with
    | absent =>
      rw [pass_of_absent h] at hnone hlength ⊢
      obtain ⟨hstate,hrest⟩ := ih hnone (Nat.le_of_succ_le_succ hlength)
      exact ⟨hstate,List.forall_mem_cons.mpr ⟨Or.inl h,hrest⟩⟩
    | ready p =>
      rw [pass_of_ready h] at hlength
      have hle := (pass_blocked_sublist .retain rest (state.emit .retain y).2).length_le
      simp only [List.length_cons,Progress.blocked_after] at hlength
      omega
    | blocked p =>
      rw [pass_of_blocked h,declare_of_blocked_retain h] at hnone hlength ⊢
      obtain ⟨hstate,hrest⟩ := ih hnone (Nat.le_of_succ_le_succ hlength)
      exact ⟨hstate,List.forall_mem_cons.mpr ⟨Or.inr ⟨p,h⟩,hrest⟩⟩
    | duplicate count => simp [pass_of_duplicate h] at hnone

/-- When the passes end under retention, no identifier of the worklist is ready. -/
theorem passes_exhausted {number : Nat} {identifiers : List Identifier}
    (hnone : (state.passes .retain number identifiers).failure = none) (hx : x ∈ identifiers)
    (p : Placed) : (state.passes .retain number identifiers).state.find x ≠ .ready p := by
  fun_induction passes .retain number identifiers state with
  | case1 => simp_all
  | case2 number identifiers state _ done hfailed => simp [hnone] at hfailed
  | case3 number identifiers state _ done hfailed resolved ended hlt ih =>
    have hdone : done.failure = none := by simpa using hfailed
    cases hawaits : done.state.awaits x with
    | true =>
      have hblocked := List.mem_filter.mpr ⟨hx,hawaits⟩
      rw [← pass_blocked_awaits hdone] at hblocked
      exact ih hnone (List.mem_filter.mp hblocked).1
    | false =>
      -- Pending statements only become fewer.
      have hpending := (passes_turns (List.Subset.refl done.blocked) hnone).pending_sublist
      have hgone := awaits_eq_false_iff_absent.mp (awaits_of_sublist hpending hawaits)
      rw [Progress.state_after,hgone]
      exact Finding.noConfusion
  | case4 number identifiers state _ done hfailed resolved ended hlt =>
    -- The last pass leaves the state as it is, so what it did not find ready is not ready in the end.
    obtain ⟨hstate,hrest⟩ := pass_fruitless hnone (Nat.le_of_not_lt hlt)
    rw [hstate]
    rcases hrest x hx with h | ⟨q,h⟩ <;> rw [h] <;> exact Finding.noConfusion

end State

end ObjectGraph
