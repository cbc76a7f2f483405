import Mathlib.Data.Finset.Dedup
import Mathlib.Data.Finset.Insert
import ObjectGraph.Proofs.Occurrences
import ObjectGraph.Proofs.Schedule.Blocks

/-! # The layout of listings

A listing is the blocks of the declared identifiers and, behind them, the rest of the document phase
by phase, each phase in reverse. Blocks and rest are read off the document. The schedule decides
nothing but the order of the blocks.
-/
namespace ObjectGraph

namespace Statement
variable {statement : Statement} {x : Identifier}

/-- The identifier that a statement brings into being. -/
def introduced? (statement : Statement) : Option Identifier :=
  if statement.phase.mayDeclare then statement.declares else none

theorem introduced?_eq_some_iff :
    statement.introduced? = some x ↔ statement.introduces x = true := by
  simp [introduced?,introduces]

theorem introduced?_eq_none (h : statement.phase ≠ .initialization) :
    statement.introduced? = none := by
  simp [introduced?,h]

/-- The first mention of an identifier counts, so a set of dependencies with one member is a list of
one. -/
theorem dependencies_eq_singleton_iff :
    statement.dependencies = [x] ↔ statement.dependencies.toFinset = {x} := by
  constructor
  · intro h
    rw [h]
    rfl
  · intro h
    have hnodup := (FirstOccurrences.eraseDups statement.action.mentions).nodup
    exact List.perm_singleton.mp
      (List.perm_of_nodup_nodup_toFinset_eq hnodup (List.nodup_singleton x) h)

theorem configures_iff_toFinset : statement.configures x = true ↔
    statement.phase = .configuration ∧ statement.dependencies.toFinset = {x} := by
  rw [configures_eq_true_iff,dependencies_eq_singleton_iff]

end Statement

/-- The identifiers that a run declares, in the order in which it emits their declarations. -/
def Run.declared (run : Run) : List Identifier := run.emitted.filterMap (·.statement.introduced?)

/-- The identifiers that passes declare, in the order of their declarations. -/
def Progress.declared (progress : Progress) : List Identifier :=
  (progress.events.flatMap Event.emitted).filterMap (·.statement.introduced?)

namespace State
variable {policy : Policy} {state : State} {x : Identifier} {p : Placed}

/-- What a turn emits behind a declaration is configuration. -/
theorem phase_of_mem_emit (h : p ∈ (state.emit policy x).1) : p.statement.phase = .configuration :=
  (Statement.configures_eq_true_iff.mp (List.mem_filter.mp h).2).1

/-- A turn declares its identifier and nothing else. -/
theorem declared_of_ready (h : state.find x = .ready p) (events : List Event) :
    ((.declared x p :: .configured x (state.emit policy x).1 :: events).flatMap
        Event.emitted).filterMap (·.statement.introduced?) =
      x :: (events.flatMap Event.emitted).filterMap (·.statement.introduced?) := by
  have hintroduced := Statement.introduced?_eq_some_iff.mpr (introduces_of_ready h)
  have hconfiguration : (state.emit policy x).1.filterMap (·.statement.introduced?) = [] :=
    List.filterMap_eq_nil_iff.mpr fun q hq =>
      Statement.introduced?_eq_none (by simp [phase_of_mem_emit hq])
  simp [Event.emitted,hintroduced,hconfiguration]

end State

namespace Document
variable {document : Document} {policy : Policy} {declared : List Identifier} {x : Identifier}

/-- The code of the declaration of `x`, with the configuration behind it that depends on `x` alone. -/
def blockCode (document : Document) (x : Identifier) : List String :=
  (document.statements.filter (·.introduces x) ++
    document.statements.filter fun s =>
      s.phase = .configuration ∧ s.dependencies.toFinset = {x}).map document.code

/-- The code that stands behind the blocks of the declared identifiers. -/
def trailingCode (document : Document) (declared : List Identifier) : List String :=
  (document.phaseCode .subviews).reverse ++ (document.phaseCode .constraints).reverse ++
    ((document.statements.filter fun s => s.phase = .configuration ∧
      ∀ x ∈ declared, s.dependencies.toFinset ≠ {x}).map document.code).reverse

/-- A listing with one block for each identifier that the document declares. -/
structure LaidOut (document : Document) (declared : List Identifier) (code : List String) : Prop where
  distinct : declared.Nodup
  complete : ∀ x, x ∈ declared ↔ ∃ s ∈ document.statements, s.introduces x = true
  single : ∀ x ∈ declared, ∃ s, document.statements.filter (·.introduces x) = [s]
  code_eq : code = declared.flatMap document.blockCode ++ document.trailingCode declared

theorem trailingCode_congr {others : List Identifier} (h : ∀ x, x ∈ declared ↔ x ∈ others) :
    document.trailingCode declared = document.trailingCode others := by
  simp only [trailingCode,h]

/-- Two listings of one document differ in the order of their blocks only. -/
theorem LaidOut.perm {others : List Identifier} {code other : List String}
    (h : document.LaidOut declared code) (ho : document.LaidOut others other) :
    declared.Perm others ∧ document.trailingCode declared = document.trailingCode others := by
  have hmem : ∀ x, x ∈ declared ↔ x ∈ others := fun x => (h.complete x).trans (ho.complete x).symm
  exact ⟨(List.perm_ext_iff_of_nodup h.distinct ho.distinct).mpr hmem,trailingCode_congr hmem⟩

/-! The code of the blocks and of the trailing phases. -/

theorem map_statement_declarationsOf (document : Document) (x : Identifier) :
    (document.declarationsOf x).map (·.statement) =
      document.statements.filter (·.introduces x) := by
  rw [← document.map_statement_placed,List.filter_map]
  rfl

theorem map_code_placed (document : Document) :
    document.placed.map (fun p => document.code p.statement) =
      document.statements.map document.code := by
  rw [← document.map_statement_placed,List.map_map]
  rfl

theorem map_code_filter (document : Document) (select : Statement → Bool) :
    (document.placed.filter (select ·.statement)).map (fun p => document.code p.statement) =
      (document.statements.filter select).map document.code := by
  rw [← document.map_statement_placed,List.filter_map,List.map_map]
  rfl

theorem map_code_block (document : Document) (x : Identifier) :
    (document.block x).map (fun p => document.code p.statement) = document.blockCode x := by
  have hconfigures : (fun s : Statement => s.configures x) =
      fun s => decide (s.phase = .configuration ∧ s.dependencies.toFinset = {x}) := by
    funext s
    rw [Bool.eq_iff_iff,Statement.configures_iff_toFinset,decide_eq_true_eq]
  rw [block,List.map_append,blockCode,List.map_append,← hconfigures]
  exact congrArg₂ (· ++ ·) (document.map_code_filter (·.introduces x))
    (document.map_code_filter (·.configures x))

theorem map_code_blocks (document : Document) (declared : List Identifier) :
    (document.blocks declared).map (fun p => document.code p.statement) =
      declared.reverse.flatMap document.blockCode := by
  rw [blocks,List.map_flatMap]
  exact congrArg (List.flatMap · _) (funext document.map_code_block)

theorem inPhase_after (document : Document) (declared : List Identifier) {phase : Phase}
    (h : phase ≠ .initialization) :
    (document.after ⟨declared,[]⟩).inPhase phase = document.placed.filter
      fun p => p.statement.phase == phase && !declared.any p.statement.configures := by
  simp only [State.inPhase,after,List.filter_filter]
  apply List.filter_congr
  intro p _
  cases hphase : p.statement.phase == phase with
  | false => rfl
  | true =>
    have hne : p.statement.phase ≠ .initialization := beq_iff_eq.mp hphase ▸ h
    have hintroduces : declared.any p.statement.introduces = false :=
      List.any_eq_false.mpr fun y _ => by simp [Statement.introduces_eq_true_iff,hne]
    simp [History.handles,hintroduces]

theorem map_code_inPhase (document : Document) (declared : List Identifier) {phase : Phase}
    (h : phase ≠ .initialization) (hconfiguration : phase ≠ .configuration) :
    ((document.after ⟨declared,[]⟩).inPhase phase).map (fun p => document.code p.statement) =
      document.phaseCode phase := by
  rw [inPhase_after document declared h,phaseCode,
    document.map_code_filter fun s => s.phase == phase && !declared.any s.configures]
  apply congrArg
  apply List.filter_congr
  intro s _
  cases hphase : s.phase == phase with
  | false => rfl
  | true =>
    have hne : s.phase ≠ .configuration := beq_iff_eq.mp hphase ▸ hconfiguration
    have hconfigures : declared.any s.configures = false :=
      List.any_eq_false.mpr fun y _ => by simp [Statement.configures_eq_true_iff,hne]
    rw [hconfigures]
    rfl

theorem map_code_trailing (document : Document) (declared : List Identifier) :
    (document.after ⟨declared,[]⟩).trailing.map (fun p => document.code p.statement) =
      document.trailingCode declared := by
  have hconfiguration : ((document.after ⟨declared,[]⟩).inPhase .configuration).map
      (fun p => document.code p.statement) =
      (document.statements.filter fun s => s.phase = .configuration ∧
        ∀ x ∈ declared, s.dependencies.toFinset ≠ {x}).map document.code := by
    rw [inPhase_after document declared (by decide),
      document.map_code_filter fun s => s.phase == .configuration && !declared.any s.configures]
    apply congrArg
    apply List.filter_congr
    intro s _
    rw [Bool.eq_iff_iff,Bool.and_eq_true,beq_iff_eq,decide_eq_true_eq]
    refine and_congr_right fun hphase => ?_
    simp [Statement.configures_iff_toFinset,hphase]
  simp only [State.trailing,Phase.trailing,List.flatMap_cons,List.flatMap_nil,List.append_nil,
    List.map_append,List.map_reverse,hconfiguration,map_code_inPhase document declared,
    ne_eq,reduceCtorEq,not_false_eq_true,trailingCode,List.append_assoc]

/-! What an order of declarations lays out. -/

theorem Ordered.nodup (h : document.Ordered declared) : declared.Nodup := by
  induction h with
  | nil => exact .nil
  | cons _ hfresh _ _ _ ih => exact List.nodup_cons.mpr ⟨hfresh,ih⟩

theorem Ordered.laidOut (h : document.Ordered declared)
    (hall : ∀ s ∈ document.statements, s.phase = .initialization →
      ∃ x ∈ declared, s.introduces x = true) :
    document.LaidOut declared.reverse
      ((document.blocks declared ++ (document.after ⟨declared,[]⟩).trailing).map
        fun p => document.code p.statement) where
  distinct := List.nodup_reverse.mpr h.nodup
  complete := by
    intro x
    rw [List.mem_reverse]
    constructor
    · intro hx
      obtain ⟨p,hp,_⟩ := h.closed hx
      exact ⟨p.statement,declares_of_declarationsOf hp⟩
    · rintro ⟨s,hs,hsx⟩
      obtain ⟨y,hy,hsy⟩ := hall s hs (Statement.introduces_eq_true_iff.mp hsx).1
      exact Statement.eq_of_introduces hsy hsx ▸ hy
  single := by
    intro x hx
    obtain ⟨p,hp,_⟩ := h.closed (List.mem_reverse.mp hx)
    refine ⟨p.statement,?_⟩
    rw [← map_statement_declarationsOf,hp]
    rfl
  code_eq := by
    rw [List.map_append,map_code_blocks,map_code_trailing,
      trailingCode_congr fun x => List.mem_reverse.symm]

theorem Ordered.filterMap_blocks (h : document.Ordered declared) :
    (document.blocks declared).filterMap (·.statement.introduced?) = declared.reverse := by
  induction h with
  | nil => rfl
  | @cons x rest p _ _ _ hp _ ih =>
    -- The block of `x` introduces `x` first and nothing behind it.
    have hintroduced : p.statement.introduced? = some x :=
      Statement.introduced?_eq_some_iff.mpr (declares_of_declarationsOf hp).2
    have hconfiguration : (document.configurationOf x).filterMap (·.statement.introduced?) = [] := by
      refine List.filterMap_eq_nil_iff.mpr fun q hq => ?_
      have hphase := (Statement.configures_eq_true_iff.mp (List.mem_filter.mp hq).2).1
      exact Statement.introduced?_eq_none (by simp [hphase])
    rw [← List.singleton_append,blocks_append,List.filterMap_append,ih]
    simp [blocks,block,hp,hintroduced,hconfiguration]

theorem filterMap_trailing (state : State) :
    state.trailing.filterMap (·.statement.introduced?) = [] :=
  List.filterMap_eq_nil_iff.mpr fun _ hp =>
    Statement.introduced?_eq_none (State.mem_trailing.mp hp).2

theorem run_declared (document : Document) (policy : Policy) : (document.run policy).declared =
    ((State.start document).passes policy 1 document.required).declared := by
  cases hfailure : ((State.start document).passes policy 1 document.required).failure with
  | some failure =>
    rw [run,State.run_of_failure hfailure]
    rfl
  | none =>
    rw [run,Run.declared,State.run_emitted hfailure,List.filterMap_append,filterMap_trailing,
      List.append_nil]
    rfl

theorem laidOut_of_listing {code : List String} (h : document.listing policy = .ok code) :
    document.LaidOut (document.run policy).declared code := by
  obtain ⟨declared,hordered,hemitted,hall⟩ := listing_eq_ok_history h
  have hdeclared : (document.run policy).declared = declared.reverse := by
    rw [Run.declared,hemitted,List.filterMap_append,hordered.filterMap_blocks,filterMap_trailing,
      List.append_nil]
  rw [hdeclared,(emitted_perm h).2,hemitted]
  exact hordered.laidOut hall

/-- Phase by phase, the code of a document is the code of all its statements. -/
theorem phaseCode_perm (document : Document) :
    (Phase.all.flatMap document.phaseCode).Perm (document.statements.map document.code) := by
  -- All statements are emitted when all phases are drained from the start.
  have hperm := (State.drainAll_leads .retain Phase.all (State.start document)).perm
  have hpending : (State.drainAll Phase.all (State.start document)).2.remaining = [] := by
    rw [State.remaining,State.drainAll_discarded,State.drainAll_pending]
    refine List.filter_eq_nil_iff.mpr fun p _ => ?_
    simp [Phase.mem_all]
  rw [hpending,List.append_nil,State.drainAll_emitted (by decide)] at hperm
  calc (Phase.all.flatMap document.phaseCode).Perm
        (Phase.all.flatMap fun phase => (document.phaseCode phase).reverse) :=
        .flatMap_left _ fun phase _ => (List.reverse_perm _).symm
    _ = (Phase.all.flatMap fun phase => ((State.start document).inPhase phase).reverse).map
        fun p => document.code p.statement := by
      rw [List.map_flatMap]
      apply congrArg (List.flatMap · Phase.all)
      funext phase
      rw [List.map_reverse]
      exact congrArg List.reverse (document.map_code_filter fun s => s.phase == phase).symm
    List.Perm _ (document.placed.map fun p => document.code p.statement) := hperm.map _
    _ = document.statements.map document.code := document.map_code_placed

/-- A listing is laid out in blocks, in the order in which the identifiers are declared, and it holds the
code of every phase. -/
theorem listing_layout {code : List String} (h : document.listing policy = .ok code) :
    document.LaidOut (document.run policy).declared code ∧
      code.Perm (Phase.all.flatMap document.phaseCode) := by
  refine ⟨laidOut_of_listing h,?_⟩
  obtain ⟨hperm,rfl⟩ := emitted_perm h
  have hcodes := hperm.map fun p => document.code p.statement
  rw [map_code_placed] at hcodes
  exact hcodes.trans document.phaseCode_perm.symm

/-- A document with configuration of every kind: for nothing in particular, for a supplied window,
for one declared object and for two. -/
def dressed : Document where
  statements := [
    .plain .configuration (.verbatim "start()" []),
    .declaring ⟨"panel"⟩ (.verbatim "let panel = Panel(label)" [⟨"label"⟩]),
    .plain .configuration (.assign ⟨"window"⟩ "title" (.reference ⟨"window"⟩)),
    .declaring ⟨"label"⟩ (.construct "Label" []),
    .plain .subviews (.attach ⟨"window"⟩ ⟨"panel"⟩),
    .declaring ⟨"icon"⟩ (.construct "Icon" []),
    .plain .configuration (.assign ⟨"label"⟩ "size" (.literal "8")),
    .plain .subviews (.attach ⟨"panel"⟩ ⟨"label"⟩),
    .plain .configuration (.invoke ⟨"panel"⟩ "adopt" [⟨none,.reference ⟨"label"⟩⟩])]
  references := [.required ⟨"panel"⟩,.supplied ⟨"window"⟩,.required ⟨"label"⟩,.required ⟨"icon"⟩]
  registry := .empty

/-- Only the configuration of the label alone stands in a block. -/
theorem layout_dressed :
    ∃ code, dressed.listing .retain = .ok code ∧
      (dressed.run .retain).declared = [⟨"label"⟩,⟨"icon"⟩,⟨"panel"⟩] ∧
      dressed.blockCode ⟨"label"⟩ = ["let label = Label()","label.size = 8"] ∧
      dressed.blockCode ⟨"panel"⟩ = ["let panel = Panel(label)"] ∧
      dressed.trailingCode [⟨"label"⟩,⟨"icon"⟩,⟨"panel"⟩] = ["panel.addSubview(label)",
        "window.addSubview(panel)","panel.adopt(label)","window.title = window","start()"] ∧
      dressed.LaidOut (dressed.run .retain).declared code ∧
      code.Perm (Phase.all.flatMap dressed.phaseCode) := by
  have hlisting : dressed.listing .retain = .ok ["let label = Label()","label.size = 8",
      "let icon = Icon()","let panel = Panel(label)","panel.addSubview(label)",
      "window.addSubview(panel)","panel.adopt(label)","window.title = window","start()"] := by
    decide +kernel
  exact ⟨_,hlisting,by decide +kernel,by decide +kernel,by decide +kernel,by decide +kernel,
    listing_layout hlisting⟩

end Document

end ObjectGraph
