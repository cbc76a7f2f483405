import Mathlib.Data.List.Chain
import ObjectGraph.Proofs.Schedule.Layout
import ObjectGraph.Proofs.Schedule.Rescan
import ObjectGraph.Schedule.Log

/-! # The account of a run

A log accounts for its run. Every pass has a record that sums up its turns, and its numbers fit those
of the next pass: what one leaves blocked is the worklist of the other. Behind the passes stand the
drains, which tell how much of each phase was left, and the record of a failure, if there is one.
-/
namespace ObjectGraph

/-- What the events of a run tell about one of its passes. -/
structure PassReport where
  /-- The events of its turns. -/
  turns : List Event
  resolved : Nat
  blocked : Nat

namespace PassReport

/-- The end of a pass begins a report, and the events before it are its turns. -/
def collect : Event → List PassReport → List PassReport
  | .passEnded _ resolved blocked,reports => ⟨[],resolved,blocked⟩ :: reports
  | event,reports =>
    reports.modifyHead fun report => { report with turns := event :: report.turns }

def records (document : Document) (report : PassReport) : List Record :=
  report.turns.filterMap (Event.record? document)

/-- The events that reports tell of passes with numbers from `number` on. -/
def events (reports : List PassReport) (number : Nat) : List Event :=
  (reports.zipIdx number).flatMap fun (report,number) =>
    report.turns ++ [.passEnded number report.resolved report.blocked]

end PassReport

/-- The passes of a run, one report for each. -/
def Run.reports (run : Run) : List PassReport := run.events.foldr PassReport.collect []

/-- What the record of a declaration that is not ready says. -/
def Policy.deferral : Policy → String
  | retain => "declaration not ready, retained"
  | discard => "declaration discarded before its dependencies were declared"

namespace Record

def pass (number : Nat) (report : PassReport) : Record :=
  ⟨false,"declaration pass",.debug,[("pass",number.repr),("resolved",report.resolved.repr),
    ("blocked",report.blocked.repr)]⟩

def drain (phase : Phase) (count : Nat) : Record :=
  ⟨false,"draining phase",.debug,[("phase",phase.name),("count",count.repr)]⟩

/-- What stands behind the drains: one record if statements are left over, and nothing else. -/
def closing (dropped : Nat) : Except Failure (List String) → List Record
  | .error (.unresolved remaining) =>
    [⟨false,"statements left unscheduled",.debug,
      [("count",remaining.length.repr),("discarded",dropped.repr)]⟩]
  | _ => []

end Record

/-- A log that tells its run pass by pass, up to a last pass that resolves nothing or leaves nothing
blocked, and then drain by drain, where `rest` statements are left for the last drain. -/
structure Document.Account (document : Document) (policy : Policy) (reports : List PassReport)
    (rest : Nat) : Prop where
  log_eq : document.log policy = document.span ::
    (reports.zipIdx 1).flatMap
      (fun (report,number) => report.records document ++ [.pass number report]) ++
    [.drain .subviews (document.statements.countP (·.phase == .subviews)),
      .drain .constraints (document.statements.countP (·.phase == .constraints)),
      .drain .configuration rest] ++
    Record.closing ((reports.flatMap (·.records document)).countP (·.title == Policy.discard.deferral))
      (document.listing policy)
  turns : ∀ report ∈ reports, ∀ record ∈ report.records document,
    record.title = "declared" ∨ record.title = policy.deferral
  resolved : ∀ report ∈ reports,
    (report.records document).countP (·.title == "declared") = report.resolved
  first : ∀ report ∈ reports.head?, report.resolved + report.blocked = document.required.length
  chained : reports.IsChain fun report next =>
    0 < report.resolved ∧ next.resolved + next.blocked = report.blocked
  last : ∀ report ∈ reports.getLast?, report.resolved = 0 ∨ report.blocked = 0
  none_iff : reports = [] ↔ document.required = []
  configuration : ((reports.flatMap (·.turns)).flatMap Event.emitted).countP
      (·.statement.phase == .configuration) + rest =
    document.statements.countP (·.phase == .configuration)
  length_le : reports.length ≤ (document.run policy).declared.length + 1
  length_le_two : policy = .discard → reports.length ≤ 2

namespace PassReport
variable (document : Document) (reports : List PassReport) (number : Nat)

theorem filterMap_events : (events reports number).filterMap (Event.record? document) =
    (reports.zipIdx number).flatMap
      fun (report,number) => report.records document ++ [.pass number report] := by
  rw [events,List.filterMap_flatMap]
  apply congrArg (List.flatMap · (reports.zipIdx number))
  funext ⟨report,number⟩
  rw [List.filterMap_append]
  rfl

theorem flatMap_emitted_events : (events reports number).flatMap Event.emitted =
    (reports.flatMap (·.turns)).flatMap Event.emitted := by
  induction reports generalizing number with
  | nil => rfl
  | cons report reports ih =>
    have hrest := ih (number + 1)
    simp only [events] at hrest
    simp [events,List.zipIdx_cons,Event.emitted,hrest]

theorem flatMap_records : reports.flatMap (·.records document) =
    (reports.flatMap (·.turns)).filterMap (Event.record? document) :=
  List.filterMap_flatMap.symm

end PassReport

namespace State
variable {policy : Policy} {worklist required : List Identifier} {state s t : State}
variable {events : List Event} {reports : List PassReport} {phase : Phase}

/-! The turns of a chain, as its records tell them. -/

/-- A look takes statements of the initialization only. -/
theorem countP_declare (hphase : phase ≠ .initialization) (x : Identifier) (state : State) :
    (state.declare policy x).2.pending.countP (·.statement.phase == phase) =
      state.pending.countP (·.statement.phase == phase) := by
  rcases declare_pending policy x state with hpending | hpending
  · rw [hpending]
  · have hnone : (state.pending.filter (·.statement.introduces x)).countP
        (·.statement.phase == phase) = 0 := by
      refine List.countP_eq_zero.mpr fun p hp => ?_
      have hinitialization := (Statement.introduces_eq_true_iff.mp (List.mem_filter.mp hp).2).1
      simp [hinitialization,hphase.symm]
    have hsplit := state.pending.countP_eq_countP_filter_add (·.statement.phase == phase)
      (·.statement.introduces x)
    rw [hpending,pendingBut,hsplit,hnone,Nat.zero_add]

theorem countP_emit (hphase : phase ≠ .initialization) (x : Identifier) (state : State) :
    (state.emit policy x).1.countP (·.statement.phase == phase) +
        (state.emit policy x).2.pending.countP (·.statement.phase == phase) =
      state.pending.countP (·.statement.phase == phase) := by
  rw [← countP_declare hphase x state]
  exact (List.countP_eq_countP_filter_add _ _ _).symm

/-- Outside the initialization, turns emit what then is no longer pending. -/
theorem Turns.countP_emitted (h : Turns policy worklist s events t)
    (hphase : phase ≠ .initialization) :
    (events.flatMap Event.emitted).countP (·.statement.phase == phase) +
        t.pending.countP (·.statement.phase == phase) =
      s.pending.countP (·.statement.phase == phase) := by
  induction h with
  | refl => simp
  | @declared s t x p events _ hfind _ ih =>
    have hp : [p].countP (·.statement.phase == phase) = 0 := by
      simp [phase_of_ready hfind,hphase.symm]
    rw [← countP_emit hphase x s,← ih,List.flatMap_cons,List.flatMap_cons,List.countP_append,
      List.countP_append,Event.emitted,Event.emitted,hp,Nat.zero_add,Nat.add_assoc]
  | notReady _ _ _ ih =>
    rw [countP_declare hphase] at ih
    simpa [Event.emitted] using ih
  | passEnded _ _ _ _ ih => simpa [Event.emitted] using ih

/-- Turns emit declarations and configuration. -/
theorem Turns.phase_emitted (h : Turns policy worklist s events t) {p : Placed}
    (hp : p ∈ events.flatMap Event.emitted) :
    p.statement.phase = .initialization ∨ p.statement.phase = .configuration := by
  induction h with
  | refl => simp at hp
  | @declared s t x q events _ hfind _ ih =>
    rw [List.flatMap_cons,List.flatMap_cons,List.mem_append,List.mem_append] at hp
    rcases hp with hp | hp | hp
    · rw [Event.emitted,List.mem_singleton] at hp
      exact Or.inl (hp ▸ phase_of_ready hfind)
    · exact Or.inr (phase_of_mem_emit hp)
    · exact ih hp
  | notReady _ _ _ ih => exact ih (by simpa [Event.emitted] using hp)
  | passEnded _ _ _ _ ih => exact ih (by simpa [Event.emitted] using hp)

/-- Each declaration that turns emit has a record. -/
theorem Turns.length_declared (document : Document) (h : Turns policy worklist s events t) :
    ((events.flatMap Event.emitted).filterMap (·.statement.introduced?)).length =
      (events.filterMap (Event.record? document)).countP (·.title == "declared") := by
  induction h with
  | refl => rfl
  | @declared s t x p events _ hfind _ ih =>
    rw [declared_of_ready hfind,List.length_cons,ih]
    simp [List.filterMap_cons,Event.record?]
  | notReady _ _ _ ih =>
    cases policy <;> simpa [Event.emitted,Event.record?] using ih
  | passEnded _ _ _ _ ih => simpa [Event.emitted,Event.record?] using ih

/-- Each declaration that is dropped has a record. -/
theorem Turns.length_discarded (document : Document) (h : Turns policy worklist s events t) :
    s.discarded.length + (events.filterMap (Event.record? document)).countP
        (·.title == Policy.discard.deferral) = t.discarded.length := by
  induction h with
  | refl => rfl
  | @declared s t x p events _ hfind _ ih =>
    have hdiscarded : (s.emit policy x).2.discarded = s.discarded := by
      simp [emit,configure,take,declare,hfind,settle]
    rw [hdiscarded] at ih
    simpa [List.filterMap_cons,Event.record?,Policy.deferral] using ih
  | @notReady s t x p events _ hfind _ ih =>
    cases policy with
    | retain =>
      rw [declare_of_blocked_retain hfind] at ih
      simpa [Event.record?,Policy.deferral] using ih
    | discard =>
      have hdiscarded : (s.declare .discard x).2.discarded = s.discarded ++ [p] := by
        simp [declare,hfind,settle]
      rw [hdiscarded,List.length_append,List.length_singleton] at ih
      simp [Event.record?,Policy.deferral] at ih ⊢
      omega
  | passEnded _ _ _ _ ih => simpa [Event.record?,Policy.deferral] using ih

/-! Passes and the reports on them. -/

def report (policy : Policy) (worklist : List Identifier) (state : State) : PassReport :=
  ⟨(state.pass policy worklist).events,
    worklist.length - (state.pass policy worklist).blocked.length,
    (state.pass policy worklist).blocked.length⟩

/-- `Reported policy worklist s reports t`: passes over a worklist that shrinks from one to the next
lead from `s` to `t`, and there is a report on each. -/
inductive Reported (policy : Policy) :
    List Identifier → State → List PassReport → State → Prop
  | nil (s : State) : Reported policy [] s [] s
  | more {worklist : List Identifier} {s t : State} {reports : List PassReport}
      (hnone : (s.pass policy worklist).failure = none)
      (hlt : (s.pass policy worklist).blocked.length < worklist.length)
      (later : Reported policy (s.pass policy worklist).blocked (s.pass policy worklist).state
        reports t) : Reported policy worklist s (s.report policy worklist :: reports) t
  | fruitless {worklist : List Identifier} {s : State} (hne : worklist ≠ [])
      (hnone : (s.pass policy worklist).failure = none)
      (hle : worklist.length ≤ (s.pass policy worklist).blocked.length) :
      Reported policy worklist s [s.report policy worklist] (s.pass policy worklist).state

theorem pass_titles (document : Document) {event : Event} {record : Record}
    (hevent : event ∈ (state.pass policy worklist).events)
    (hrecord : event.record? document = some record) :
    record.title = "declared" ∨ record.title = policy.deferral := by
  induction worklist generalizing state with
  | nil => cases hevent
  | cons x rest ih =>
    cases hfind : state.find x with
    | absent =>
      rw [pass_of_absent hfind] at hevent
      exact ih hevent
    | ready p =>
      rw [pass_of_ready hfind] at hevent
      rcases List.mem_append.mp hevent with hevent | hevent
      · simp only [List.mem_cons,List.not_mem_nil,or_false] at hevent
        rcases hevent with rfl | rfl
        · exact Or.inl (congrArg Record.title (Option.some.inj hrecord).symm)
        · cases hrecord
      · exact ih hevent
    | blocked p =>
      rw [pass_of_blocked hfind] at hevent
      rcases List.mem_append.mp hevent with hevent | hevent
      · rw [List.mem_singleton] at hevent
        subst hevent
        refine Or.inr ?_
        cases policy <;> exact congrArg Record.title (Option.some.inj hrecord).symm
      · exact ih hevent
    | duplicate count =>
      rw [pass_of_duplicate hfind] at hevent
      cases hevent

/-- A pass has a record for each identifier that it resolves. -/
theorem pass_resolved (document : Document)
    (hnone : (state.pass policy worklist).failure = none) :
    ((state.pass policy worklist).events.filterMap (Event.record? document)).countP
        (·.title == "declared") + (state.pass policy worklist).blocked.length =
      worklist.length := by
  induction worklist generalizing state with
  | nil => rfl
  | cons x rest ih =>
    cases hfind : state.find x with
    | absent =>
      rw [pass_of_absent hfind] at hnone ⊢
      have hrest := ih hnone
      simp only [Progress.events_waiting,Progress.blocked_waiting,List.length_cons]
      omega
    | ready p =>
      rw [pass_of_ready hfind] at hnone ⊢
      have hrest := ih hnone
      simp [List.filterMap_cons,Event.record?]
      omega
    | blocked p =>
      rw [pass_of_blocked hfind] at hnone ⊢
      have hrest := ih hnone
      cases policy <;> simp [Event.record?] <;> omega
    | duplicate count => simp [pass_of_duplicate hfind] at hnone

theorem pass_blocked_le (policy : Policy) (worklist : List Identifier) (state : State) :
    (state.pass policy worklist).blocked.length ≤ worklist.length :=
  (pass_blocked_sublist policy worklist state).length_le

theorem report_resolved (document : Document)
    (hnone : (state.pass policy worklist).failure = none) :
    ((state.report policy worklist).records document).countP (·.title == "declared") =
      (state.report policy worklist).resolved :=
  Nat.eq_sub_of_add_eq (pass_resolved document hnone)

/-- The events of a pass that does not fail are collected in its report. -/
theorem foldr_collect_pass (number : Nat) (reports : List PassReport) :
    ((state.pass policy worklist).events ++ [Event.passEnded number
        (worklist.length - (state.pass policy worklist).blocked.length)
        (state.pass policy worklist).blocked.length]).foldr PassReport.collect reports =
      state.report policy worklist :: reports := by
  have hturns : ∀ events : List Event, events ⊆ (state.pass policy worklist).events →
      ∀ report : PassReport, events.foldr PassReport.collect (report :: reports) =
        { report with turns := events ++ report.turns } :: reports := by
    intro events hsub report
    induction events with
    | nil => rfl
    | cons event events ih =>
      obtain ⟨hevent,hevents⟩ := List.cons_subset.mp hsub
      rw [List.foldr_cons,ih hevents]
      cases event with
      | passEnded number resolved blocked =>
        have htitle := pass_titles .empty hevent rfl
        cases policy <;> simp [Policy.deferral] at htitle
      | _ => rfl
  rw [List.foldr_append,List.foldr_cons,List.foldr_nil,PassReport.collect,
    hturns _ (List.Subset.refl _),report,List.append_nil]

theorem passes_reported {number : Nat}
    (hnone : (state.passes policy number worklist).failure = none) :
    Reported policy worklist state
        ((state.passes policy number worklist).events.foldr PassReport.collect [])
        (state.passes policy number worklist).state ∧
      (state.passes policy number worklist).events = PassReport.events
        ((state.passes policy number worklist).events.foldr PassReport.collect []) number := by
  fun_induction passes policy number worklist state with
  | case1 number worklist state hempty =>
    rw [List.isEmpty_iff] at hempty
    subst hempty
    exact ⟨.nil state,rfl⟩
  | case2 number worklist state _ done hfailed => simp [hnone] at hfailed
  | case3 number worklist state _ done hfailed resolved ended hlt ih =>
    have hdone : done.failure = none := by simpa using hfailed
    obtain ⟨hreported,hevents⟩ := ih hnone
    simp only [Progress.events_after,Progress.state_after,List.foldr_append,ended]
    rw [← List.foldr_append,foldr_collect_pass]
    refine ⟨.more hdone hlt hreported,?_⟩
    rw [PassReport.events,List.zipIdx_cons,List.flatMap_cons,← PassReport.events,← hevents]
    rfl
  | case4 number worklist state hne done hfailed resolved ended hlt =>
    simp only [ended]
    rw [foldr_collect_pass]
    refine ⟨.fruitless (mt List.isEmpty_iff.mpr hne) hnone (Nat.le_of_not_lt hlt),?_⟩
    rw [PassReport.events,List.zipIdx_singleton,List.flatMap_singleton]
    rfl

namespace Reported

theorem forall_mem {P : PassReport → Prop} (h : Reported policy worklist s reports t)
    (hP : ∀ (s : State) (worklist : List Identifier), (s.pass policy worklist).failure = none →
      P (s.report policy worklist)) : ∀ report ∈ reports, P report := by
  induction h with
  | nil => exact fun _ hreport => absurd hreport List.not_mem_nil
  | more hnone _ _ ih => exact List.forall_mem_cons.mpr ⟨hP _ _ hnone,ih⟩
  | fruitless _ hnone _ => exact List.forall_mem_singleton.mpr (hP _ _ hnone)

theorem turns (h : Reported policy worklist s reports t) (hsub : worklist ⊆ required) :
    Turns policy required s (reports.flatMap (·.turns)) t := by
  induction h with
  | nil s => exact .refl s
  | @more worklist s _ _ hnone _ _ ih =>
    have hblocked := (pass_blocked_sublist policy worklist s).subset
    exact (pass_turns hsub hnone).trans (ih (List.Subset.trans hblocked hsub))
  | fruitless _ hnone _ =>
    rw [List.flatMap_singleton]
    exact pass_turns hsub hnone

theorem eq_nil_iff (h : Reported policy worklist s reports t) : reports = [] ↔ worklist = [] := by
  cases h with
  | nil => simp
  | more _ hlt _ => simp [List.ne_nil_of_length_pos (Nat.zero_lt_of_lt hlt)]
  | fruitless hne _ _ => simp [hne]

/-- The first pass finds the whole worklist and divides it up. -/
theorem first (h : Reported policy worklist s reports t) {report : PassReport}
    (hreport : report ∈ reports.head?) : report.resolved + report.blocked = worklist.length := by
  have hsum : ∀ worklist : List Identifier, (s.report policy worklist).resolved +
      (s.report policy worklist).blocked = worklist.length :=
    fun worklist => Nat.sub_add_cancel (pass_blocked_le policy worklist s)
  cases h with
  | nil => cases hreport
  | more _ _ _ => exact Option.some.inj hreport ▸ hsum worklist
  | fruitless _ _ _ => exact Option.some.inj hreport ▸ hsum worklist

theorem isChain (h : Reported policy worklist s reports t) : reports.IsChain fun report next =>
    0 < report.resolved ∧ next.resolved + next.blocked = report.blocked := by
  induction h with
  | nil => exact .nil
  | more _ hlt later ih =>
    exact List.isChain_cons.mpr ⟨fun next hnext => ⟨Nat.sub_pos_of_lt hlt,later.first hnext⟩,ih⟩
  | fruitless _ _ _ => exact .singleton _

theorem last (h : Reported policy worklist s reports t) :
    ∀ report ∈ reports.getLast?, report.resolved = 0 ∨ report.blocked = 0 := by
  induction h with
  | nil => exact fun _ hreport => nomatch hreport
  | @more worklist s t reports _ _ later ih =>
    cases hreports : reports with
    | nil =>
      -- No pass follows, so nothing is blocked.
      have hblocked := later.eq_nil_iff.mp hreports
      rintro report ⟨⟩
      exact Or.inr (List.length_eq_zero_iff.mpr hblocked)
    | cons next rest =>
      rw [hreports] at ih
      rw [List.getLast?_cons_cons]
      exact ih
  | @fruitless worklist s _ _ hle =>
    rintro report ⟨⟩
    exact Or.inl (Nat.sub_eq_zero_of_le hle)

theorem length_le (document : Document) (h : Reported policy worklist s reports t) :
    reports.length ≤
      (reports.flatMap (·.records document)).countP (·.title == "declared") + 1 := by
  induction h with
  | nil => exact Nat.zero_le _
  | @more worklist s _ _ hnone hlt _ ih =>
    have hresolved := report_resolved document hnone
    have hpos : 0 < (s.report policy worklist).resolved := Nat.sub_pos_of_lt hlt
    rw [List.length_cons,List.flatMap_cons,List.countP_append]
    omega
  | fruitless _ _ _ => exact Nat.le_add_left _ _

/-- Where nothing is to be declared any more, the first pass is the last. -/
theorem length_le_one (h : Reported policy worklist s reports t)
    (hgone : ∀ x ∈ worklist, s.awaits x = false) : reports.length ≤ 1 := by
  cases h with
  | nil => exact Nat.zero_le 1
  | more hnone hlt _ =>
    have hskips : s.Skips (fun _ => false) worklist :=
      fun x hx _ => awaits_eq_false_iff.mp (hgone x hx)
    have hblocked := hskips.pass_blocked hnone
    simp only [Bool.not_false,List.filter_true] at hblocked
    rw [hblocked] at hlt
    exact absurd hlt (Nat.lt_irrefl _)
  | fruitless _ _ _ => exact Nat.le_refl 1

theorem length_le_two (h : Reported .discard worklist s reports t) : reports.length ≤ 2 := by
  cases h with
  | nil => exact Nat.zero_le 2
  | more hnone _ later =>
    -- The first pass emits or drops all that is to be declared.
    have hgone := pass_discard_awaits hnone
    have hblocked := (pass_blocked_sublist .discard worklist s).subset
    exact Nat.succ_le_succ (later.length_le_one fun x hx => hgone x (hblocked hx))
  | fruitless _ _ _ => exact Nat.le_succ 1

end Reported

/-! The whole run, with its drains and its end. -/

theorem run_events (h : (state.passes policy 1 required).failure = none) :
    (state.run policy required).events = (state.passes policy 1 required).events ++
      (Phase.trailing.map fun phase => .drained phase
        ((state.passes policy 1 required).state.inPhase phase).reverse) ++
      (drainAll Phase.trailing (state.passes policy 1 required).state).2.close.events := by
  simp only [run,h,drainAll_events Phase.nodup_trailing]

/-- The drains and the end are part of no pass. -/
theorem run_reports (h : (state.passes policy 1 required).failure = none) :
    (state.run policy required).reports =
      (state.passes policy 1 required).events.foldr PassReport.collect [] := by
  have hclose : ∀ s : State, s.close.events.foldr PassReport.collect [] = [] := by
    intro s
    unfold close
    split <;> rfl
  rw [Run.reports,run_events h,List.append_assoc,List.foldr_append,List.foldr_append,hclose]
  rfl

theorem run_closing (document : Document)
    (h : (state.passes policy 1 required).failure = none) :
    (drainAll Phase.trailing (state.passes policy 1 required).state).2.close.events.filterMap
        (Event.record? document) =
      Record.closing (state.passes policy 1 required).state.discarded.length
        ((state.run policy required).listing document) := by
  have hfailure : (state.run policy required).failure =
      (drainAll Phase.trailing (state.passes policy 1 required).state).2.close.failure := by
    simp only [run,h]
  rw [Run.listing,hfailure,close]
  split
  · rfl
  · simp [Event.record?,Record.closing,drainAll_discarded]

/-- Outside the initialization, a drain emits what turns from the start have not. -/
theorem Turns.length_inPhase {document : Document} {t : State}
    (h : Turns policy worklist (start document) events t) (hphase : phase ≠ .initialization) :
    (events.flatMap Event.emitted).countP (·.statement.phase == phase) +
      (t.inPhase phase).length = document.statements.countP (·.phase == phase) := by
  rw [inPhase,← List.countP_eq_length_filter,h.countP_emitted hphase,
    ← document.map_statement_placed,List.countP_map]
  rfl

theorem Turns.length_inPhase_eq {document : Document} {t : State}
    (h : Turns policy worklist (start document) events t) (phase : Phase)
    (hphase : phase ≠ .initialization) (hconfiguration : phase ≠ .configuration) :
    (t.inPhase phase).length = document.statements.countP (·.phase == phase) := by
  have hnone : (events.flatMap Event.emitted).countP (·.statement.phase == phase) = 0 := by
    refine List.countP_eq_zero.mpr fun p hp => ?_
    rcases h.phase_emitted hp with hp | hp <;> simp [hp,hphase.symm,hconfiguration.symm]
  rw [← h.length_inPhase hphase,hnone,Nat.zero_add]

end State

namespace Document
variable {document : Document} {policy : Policy}

section Passes
variable (hnone : ((State.start document).passes policy 1 document.required).failure = none)
include hnone

theorem reported_run :
    State.Reported policy document.required (State.start document) (document.run policy).reports
        ((State.start document).passes policy 1 document.required).state ∧
      ((State.start document).passes policy 1 document.required).events =
        PassReport.events (document.run policy).reports 1 := by
  rw [run,State.run_reports hnone]
  exact State.passes_reported hnone

theorem log_of_passes :
    document.log policy = document.span ::
      ((document.run policy).reports.zipIdx 1).flatMap
        (fun (report,number) => report.records document ++ [.pass number report]) ++
      [.drain .subviews (document.statements.countP (·.phase == .subviews)),
        .drain .constraints (document.statements.countP (·.phase == .constraints)),
        .drain .configuration (((State.start document).passes policy 1
          document.required).state.inPhase .configuration).length] ++
      Record.closing (((document.run policy).reports.flatMap (·.records document)).countP
        (·.title == Policy.discard.deferral)) (document.listing policy) := by
  obtain ⟨hreported,hevents⟩ := reported_run hnone
  have hturns := hreported.turns (List.Subset.refl document.required)
  have hsubviews := hturns.length_inPhase_eq .subviews (by decide) (by decide)
  have hconstraints := hturns.length_inPhase_eq .constraints (by decide) (by decide)
  have hdropped := hturns.length_discarded document
  have hstart : (State.start document).discarded.length = 0 := rfl
  rw [← PassReport.flatMap_records,hstart,Nat.zero_add] at hdropped
  have hrun : (document.run policy).events = _ := State.run_events hnone
  rw [log,hrun,List.filterMap_append,List.filterMap_append,hevents,
    PassReport.filterMap_events,State.run_closing document hnone,hdropped]
  simp only [Phase.trailing,List.map_cons,List.map_nil,List.filterMap_cons,List.filterMap_nil,
    Event.record?,List.length_reverse,hsubviews,hconstraints,List.cons_append]
  rfl

/-- The declarations that the run emits are those that have a record in a pass. -/
theorem length_declared_of_passes :
    (document.run policy).declared.length = ((document.run policy).reports.flatMap
      (·.records document)).countP (·.title == "declared") := by
  obtain ⟨hreported,hevents⟩ := reported_run hnone
  have hturns := hreported.turns (List.Subset.refl document.required)
  rw [run_declared,Progress.declared,hevents,PassReport.flatMap_emitted_events,
    hturns.length_declared document,← PassReport.flatMap_records]

end Passes

/-- A log accounts for its run, unless the run ends at a doubly declared identifier. -/
theorem log_accounts
    (hclash : ∀ x count, document.listing policy ≠ .error (.duplicate x count)) :
    ∃ rest, document.Account policy (document.run policy).reports rest := by
  have hnone : ((State.start document).passes policy 1 document.required).failure = none := by
    cases hfailure : ((State.start document).passes policy 1 document.required).failure with
    | none => rfl
    | some failure =>
      obtain ⟨x,_,count,rfl,_⟩ := State.passes_failure hfailure
      have hrun := State.run_failure_eq_duplicate_iff.mpr hfailure
      exact absurd (Run.listing_eq_error_iff.mpr hrun) (hclash x count)
  obtain ⟨hreported,_⟩ := reported_run hnone
  have hturns := hreported.turns (List.Subset.refl document.required)
  refine ⟨_,log_of_passes hnone,?_,?_,fun _ => hreported.first,hreported.isChain,hreported.last,
    hreported.eq_nil_iff,hturns.length_inPhase (by decide),?_,?_⟩
  · refine hreported.forall_mem fun s worklist _ record hrecord => ?_
    obtain ⟨event,hevent,hrecord⟩ := List.mem_filterMap.mp hrecord
    exact State.pass_titles document hevent hrecord
  · exact hreported.forall_mem fun _ _ hpass => State.report_resolved document hpass
  · rw [length_declared_of_passes hnone]
    exact hreported.length_le document
  · rintro rfl
    exact hreported.length_le_two

/-- The early declaration is dropped in the first pass, and the second one misses it. -/
theorem log_accounts_late :
    (∀ x count, late.listing .discard ≠ .error (.duplicate x count)) ∧
      (late.run .discard).reports.map (fun report => (report.resolved,report.blocked)) =
        [(1,1),(0,1)] ∧
      (late.log .discard).getLast? = some ⟨false,"statements left unscheduled",.debug,
        [("count","1"),("discarded","1")]⟩ ∧
      ∃ rest, late.Account .discard (late.run .discard).reports rest := by
  have hfailure : (late.run .discard).failure =
      some (.unresolved [⟨.initialization,some ⟨"panel"⟩,[⟨"label"⟩]⟩]) := by decide +kernel
  have hclash : ∀ x count, late.listing .discard ≠ .error (.duplicate x count) := by
    intro x count h
    have hduplicate := hfailure.symm.trans (Run.listing_eq_error_iff.mp h)
    simp at hduplicate
  exact ⟨hclash,by decide +kernel,by decide +kernel,log_accounts hclash⟩

end Document

end ObjectGraph
