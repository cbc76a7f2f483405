import ObjectGraph.Proofs.Schedule.Clashes
import ObjectGraph.Schedule.Log

/-! # Policies compared

The policies differ on blocked declarations only. Until one is met, runs under either policy do the
same; once one is met, the discarding policy has dropped a declaration, and then it lists nothing.
-/
namespace ObjectGraph

namespace State
variable {policy : Policy} {worklist required : List Identifier} {state : State} {number : Nat}
variable {x : Identifier} {p : Placed}

/-- A declaration that is ready is emitted in the same way under every policy. -/
theorem emit_of_ready (h : state.find x = .ready p) (policy other : Policy) :
    state.emit policy x = state.emit other x := by
  simp only [emit,declare,h,settle]

theorem pass_of_quiet (hnone : (state.pass .retain worklist).failure = none)
    (hquiet : ∀ x p, .notReady .retain x p ∉ (state.pass .retain worklist).events) :
    state.pass .discard worklist = state.pass .retain worklist := by
  induction worklist generalizing state with
  | nil => rfl
  | cons x rest ih =>
    cases hfind : state.find x with
    | absent =>
      rw [pass_of_absent hfind] at hnone hquiet
      rw [pass_of_absent hfind,pass_of_absent hfind,ih hnone hquiet]
    | ready p =>
      rw [pass_of_ready hfind] at hnone hquiet
      have hrest : ∀ y q, .notReady .retain y q ∉
          ((state.emit .retain x).2.pass .retain rest).events := by
        intro y q hevent
        exact hquiet y q (List.mem_append_right _ hevent)
      rw [pass_of_ready hfind,pass_of_ready hfind,emit_of_ready hfind .discard .retain,
        ih hnone hrest]
    | blocked p =>
      rw [pass_of_blocked hfind] at hquiet
      exact absurd List.mem_cons_self (hquiet x p)
    | duplicate count => simp [pass_of_duplicate hfind] at hnone

/-- Without a blocked declaration, passes are the same under either policy. -/
theorem passes_of_quiet (hnone : (state.passes .retain number worklist).failure = none)
    (hquiet : ∀ x p, .notReady .retain x p ∉ (state.passes .retain number worklist).events) :
    state.passes .discard number worklist = state.passes .retain number worklist := by
  fun_induction passes .retain number worklist state with
  | case1 number worklist state hempty => rw [passes,if_pos hempty]
  | case2 number worklist state _ done hfailed => simp [hnone] at hfailed
  | case3 number worklist state _ done hfailed resolved ended hlt ih =>
    have hdone : done.failure = none := by simpa using hfailed
    have hpass : state.pass .discard worklist = done := by
      apply pass_of_quiet hdone
      intro x p hevent
      exact hquiet x p (List.mem_append_left _ (List.mem_append_left _ hevent))
    have hrest : ∀ x p, .notReady .retain x p ∉
        (done.state.passes .retain (number + 1) done.blocked).events := by
      intro x p hevent
      exact hquiet x p (List.mem_append_right _ hevent)
    rw [passes_of_progress (by rw [hpass,hdone]) (by rw [hpass]; exact hlt),hpass,ih hnone hrest]
  | case4 number worklist state hne done hfailed resolved ended hlt =>
    have hpass : state.pass .discard worklist = done := by
      apply pass_of_quiet hnone
      intro x p hevent
      exact hquiet x p (List.mem_append_left _ hevent)
    rw [passes,if_neg hne,hpass,if_neg hfailed,if_neg hlt]

/-! What the discarding policy drops stays dropped. -/

theorem Turns.discarded_ne_nil {s t : State} {events : List Event}
    (h : Turns policy required s events t) (hs : s.discarded ≠ []) : t.discarded ≠ [] := by
  intro hnil
  have hprefix := h.leads.discarded_prefix
  rw [hnil,List.prefix_nil] at hprefix
  exact hs hprefix

/-- Passes that do not fail go through the state after the first of them. -/
theorem passes_discarded_ne_nil (hnone : (state.passes policy number worklist).failure = none)
    (hpass : (state.pass policy worklist).failure = none →
      (state.pass policy worklist).state.discarded ≠ []) :
    (state.passes policy number worklist).state.discarded ≠ [] := by
  cases hfirst : (state.pass policy worklist).failure with
  | some failure => simp [passes_of_failed hfirst,hfirst] at hnone
  | none =>
    by_cases hlt : (state.pass policy worklist).blocked.length < worklist.length
    · rw [passes_of_progress hfirst hlt] at hnone ⊢
      exact (passes_turns (List.Subset.refl _) hnone).discarded_ne_nil (hpass hfirst)
    · obtain ⟨events,hpasses⟩ := passes_of_fruitless hfirst (Nat.not_lt.mp hlt)
      rw [hpasses]
      exact hpass hfirst

theorem discarded_of_blocked (h : state.find x = .blocked p) :
    (state.declare .discard x).2.discarded ≠ [] := by
  simp [declare,h,settle]

/-- A pass that meets a blocked declaration drops one if the policy discards. -/
theorem pass_discards (hmet : ∃ x p, .notReady .retain x p ∈ (state.pass .retain worklist).events)
    (hnone : (state.pass .discard worklist).failure = none) :
    (state.pass .discard worklist).state.discarded ≠ [] := by
  induction worklist generalizing state with
  | nil => simp [pass] at hmet
  | cons x rest ih =>
    cases hfind : state.find x with
    | absent =>
      rw [pass_of_absent hfind] at hmet hnone ⊢
      exact ih hmet hnone
    | ready p =>
      rw [pass_of_ready hfind] at hmet hnone ⊢
      rw [emit_of_ready hfind .discard .retain] at hnone ⊢
      apply ih _ hnone
      obtain ⟨y,q,hevent⟩ := hmet
      exact ⟨y,q,by simpa using hevent⟩
    | blocked p =>
      rw [pass_of_blocked hfind] at hnone ⊢
      exact (pass_turns (List.Subset.refl rest) hnone).discarded_ne_nil
        (discarded_of_blocked hfind)
    | duplicate count => simp [pass_of_duplicate hfind] at hmet

/-- Passes that meet a blocked declaration have dropped one in the end if the policy discards. -/
theorem passes_discard (hmet : ∃ x p,
      .notReady .retain x p ∈ (state.passes .retain number worklist).events)
    (hnone : (state.passes .discard number worklist).failure = none) :
    (state.passes .discard number worklist).state.discarded ≠ [] := by
  fun_induction passes .retain number worklist state with
  | case1 => simp at hmet
  | case2 number worklist state _ done hfailed =>
    exact passes_discarded_ne_nil hnone (pass_discards hmet)
  | case3 number worklist state _ done hfailed resolved ended hlt ih =>
    have hdone : done.failure = none := by simpa using hfailed
    -- The policies part in the first pass that meets a blocked declaration, this one or a later one.
    by_cases hfirst : ∃ x p, .notReady .retain x p ∈ done.events
    · exact passes_discarded_ne_nil hnone (pass_discards hfirst)
    · have hpass : state.pass .discard worklist = done := by
        apply pass_of_quiet hdone
        intro x p hevent
        exact hfirst ⟨x,p,hevent⟩
      rw [passes_of_progress (by rw [hpass,hdone]) (by rw [hpass]; exact hlt),hpass] at hnone ⊢
      apply ih _ hnone
      obtain ⟨x,p,hevent⟩ := hmet
      refine ⟨x,p,?_⟩
      simp only [Progress.events_after,ended,List.mem_append,List.mem_singleton] at hevent
      grind
  | case4 number worklist state _ done hfailed resolved ended hlt =>
    apply passes_discarded_ne_nil hnone
    apply pass_discards
    obtain ⟨x,p,hevent⟩ := hmet
    exact ⟨x,p,by simpa [ended] using hevent⟩

theorem not_mem_drainAll (phases : List Phase) (state : State) :
    .notReady policy x p ∉ (drainAll phases state).1 := by
  induction phases generalizing state with
  | nil => exact List.not_mem_nil
  | cons phase rest ih =>
    intro hevent
    rcases List.mem_cons.mp hevent with hevent | hevent
    · cases hevent
    · exact ih (state.drain phase).2 hevent

theorem not_mem_close (state : State) : .notReady policy x p ∉ state.close.events := by
  unfold close
  split <;> simp

end State

/-- Whether a blocked declaration was met in a run and retained. -/
def Run.Retains (run : Run) : Prop := ∃ x p, Event.notReady .retain x p ∈ run.events

namespace State
variable {required : List Identifier} {state : State}

theorem retains_run_iff : (state.run .retain required).Retains ↔
    ∃ x p, .notReady .retain x p ∈ (state.passes .retain 1 required).events := by
  cases h : (state.passes .retain 1 required).failure with
  | some failure => rw [run_of_failure h,Run.Retains]
  | none => simp [run,h,Run.Retains,not_mem_drainAll,not_mem_close]

theorem run_of_quiet (hnone : (state.passes .retain 1 required).failure = none)
    (hquiet : ¬(state.run .retain required).Retains) :
    state.run .discard required = state.run .retain required := by
  have hpasses : state.passes .discard 1 required = state.passes .retain 1 required := by
    apply passes_of_quiet hnone
    intro x p hevent
    exact hquiet (retains_run_iff.mpr ⟨x,p,hevent⟩)
  rw [run,run,hpasses]

/-- Where one policy retains a declaration, the other one lists nothing. -/
theorem run_discard_failure (hmet : (state.run .retain required).Retains) :
    (state.run .discard required).failure ≠ none := by
  intro hnone
  obtain ⟨hpasses,hleft⟩ := run_failure_eq_none_iff.mp hnone
  have hdiscarded := passes_discard (retains_run_iff.mp hmet) hpasses
  exact hdiscarded (List.append_eq_nil_iff.mp hleft).1

end State

namespace Document
variable {document : Document} {policy : Policy}

theorem record_retained_iff (document : Document) {event : Event} :
    (∃ record, event.record? document = some record ∧
        record.title = "declaration not ready, retained") ↔
      ∃ x p, event = .notReady .retain x p := by
  cases event with
  | notReady policy x p => cases policy <;> simp [Event.record?]
  | _ => simp [Event.record?]

/-- The log tells whether a blocked declaration was met. -/
theorem log_retained_iff (document : Document) :
    (∃ record ∈ document.log .retain, record.title = "declaration not ready, retained") ↔
      (document.run .retain).Retains := by
  have hspan : document.span.title ≠ "declaration not ready, retained" := by
    simp [span]
  simp only [log,List.exists_mem_cons_iff,hspan,false_or,List.mem_filterMap]
  constructor
  · rintro ⟨record,⟨event,hevent,hrecord⟩,htitle⟩
    obtain ⟨x,p,rfl⟩ := document.record_retained_iff.mp ⟨record,hrecord,htitle⟩
    exact ⟨x,p,hevent⟩
  · rintro ⟨x,p,hevent⟩
    obtain ⟨record,hrecord,htitle⟩ := document.record_retained_iff.mpr ⟨x,p,rfl⟩
    exact ⟨record,⟨_,hevent,hrecord⟩,htitle⟩

theorem listing_of_clash {x : Identifier}
    (h : document.required.find? document.clashes = some x) (policy : Policy) :
    document.listing policy = .error (document.clash x) :=
  listing_eq_duplicate_iff.mpr ⟨h,rfl⟩

/-- Documents have the same outcome under either policy if no blocked declaration is met. -/
theorem listing_of_quiet (hquiet : ¬(document.run .retain).Retains) :
    document.listing .discard = document.listing .retain := by
  cases hfind : document.required.find? document.clashes with
  | some x => rw [listing_of_clash hfind,listing_of_clash hfind]
  | none =>
    have hnone := document.passes_failure_eq_clash .retain
    rw [hfind] at hnone
    have hrun : document.run .discard = document.run .retain := State.run_of_quiet hnone hquiet
    rw [listing,listing,hrun]

theorem listing_discard_of_retains (hmet : (document.run .retain).Retains) :
    ∃ failure, document.listing .discard = .error failure := by
  obtain ⟨failure,hfailure⟩ := Option.ne_none_iff_exists'.mp (State.run_discard_failure hmet)
  exact ⟨failure,Run.listing_eq_error_iff.mpr hfailure⟩

/-- The policies agree on a document just as long as no blocked declaration is met: until then they
have the same outcome, and after it the discarding policy refuses the document. So a listing under the
discarding policy is one under retention too, and holds every statement. -/
theorem listing_discard (document : Document) :
    ((∃ record ∈ document.log .retain, record.title = "declaration not ready, retained") ↔
        (document.run .retain).Retains) ∧
      (¬(document.run .retain).Retains →
        document.listing .discard = document.listing .retain) ∧
      ((document.run .retain).Retains → ∃ failure, document.listing .discard = .error failure) ∧
      ∀ code, document.listing .discard = .ok code →
        document.listing .retain = .ok code ∧
          (document.run .discard).emitted.Perm document.placed ∧
          code = (document.run .discard).emitted.map fun p => document.code p.statement := by
  refine ⟨document.log_retained_iff,listing_of_quiet,listing_discard_of_retains,?_⟩
  intro code hcode
  refine ⟨?_,emitted_perm hcode⟩
  by_cases hmet : (document.run .retain).Retains
  · obtain ⟨failure,hfailure⟩ := listing_discard_of_retains hmet
    rw [hcode] at hfailure
    cases hfailure
  · rw [← listing_of_quiet hmet]
    exact hcode

/-- The panel is looked for before its label: one policy waits for it, the other gives up. -/
theorem listing_discard_late : (late.run .retain).Retains ∧
    late.listing .retain = .ok ["let label = Label()","label.size = 8",
      "let panel = Panel(label)","panel.addSubview(label)","panel.adopt(label)"] ∧
    ∃ failure, late.listing .discard = .error failure := by
  have hlog : ∃ record ∈ late.log .retain,
      record.title = "declaration not ready, retained" := by decide +kernel
  have hmet := (listing_discard late).1.mp hlog
  exact ⟨hmet,by decide +kernel,(listing_discard late).2.2.1 hmet⟩

end Document

end ObjectGraph
