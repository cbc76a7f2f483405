import ObjectGraph.Proofs.Schedule.Rearrangement

/-! # Attempts by hand

A caller may try to emit some identifiers by hand before a run. Under retention an attempt that fails
or comes too early leaves no trace, and one that succeeds does what a turn of the passes does. So the
run goes on from a history and ends as it would have ended without the attempts.
-/
namespace ObjectGraph

namespace State
variable {policy : Policy} {worklist targets : List Identifier} {state : State} {x : Identifier}
variable {p : Placed} {count : Nat}

/-- An attempt at `x`: its declaration and, if this is emitted, its configuration behind it. -/
def attempt (policy : Policy) (x : Identifier) (state : State) :
    Except Failure (List Placed) × State :=
  let found := state.declare policy x
  match found.1.outcome x with
  | .error failure => (.error failure,found.2)
  | .ok none => (.ok [],found.2)
  | .ok (some p) =>
    let taken := found.2.configure x
    (.ok (p :: taken.1),taken.2)

/-- What attempts at identifiers emit, and the state behind them. Those that fail are passed over. -/
def attemptAll (policy : Policy) (state : State) : List Identifier → List Placed × State
  | [] => ([],state)
  | x :: rest =>
    let first := state.attempt policy x
    let later := first.2.attemptAll policy rest
    (first.1.toOption.getD [] ++ later.1,later.2)

theorem attempt_of_absent (policy : Policy) (h : state.find x = .absent) :
    state.attempt policy x = (.ok [],state) := by
  simp [attempt,declare,h,Finding.outcome,settle]

theorem attempt_of_ready (policy : Policy) (h : state.find x = .ready p) :
    state.attempt policy x =
      (.ok (p :: (state.emit policy x).1),(state.emit policy x).2) := by
  simp [attempt,emit,declare,h,Finding.outcome]

theorem attempt_of_blocked (policy : Policy) (h : state.find x = .blocked p) :
    state.attempt policy x = (.ok [],(state.declare policy x).2) := by
  simp [attempt,declare,h,Finding.outcome]

theorem attempt_of_duplicate (policy : Policy) (h : state.find x = .duplicate count) :
    state.attempt policy x = (.error (.duplicate x count),(state.declare policy x).2) := by
  simp [attempt,declare,h,Finding.outcome]

/-- Under retention attempts are a chain of turns. -/
theorem attemptAll_turns (state : State) (hsub : targets ⊆ worklist) :
    ∃ events, Turns .retain worklist state events (state.attemptAll .retain targets).2 ∧
      events.flatMap Event.emitted = (state.attemptAll .retain targets).1 := by
  induction targets generalizing state with
  | nil => exact ⟨[],.refl state,rfl⟩
  | cons x rest ih =>
    obtain ⟨hx,hrest⟩ := List.cons_subset.mp hsub
    cases hfind : state.find x with
    | absent =>
      simp only [attemptAll,attempt_of_absent .retain hfind]
      exact ih state hrest
    | ready p =>
      simp only [attemptAll,attempt_of_ready .retain hfind]
      obtain ⟨events,hturns,hemitted⟩ := ih (state.emit .retain x).2 hrest
      refine ⟨_,.declared hx hfind hturns,?_⟩
      rw [← hemitted]
      rfl
    | blocked p =>
      simp only [attemptAll,attempt_of_blocked .retain hfind,declare_of_blocked_retain hfind]
      exact ih state hrest
    | duplicate count =>
      have hstate : (state.declare .retain x).2 = state := by simp [declare,hfind,settle]
      simp only [attemptAll,attempt_of_duplicate .retain hfind,hstate]
      exact ih state hrest

end State

namespace Document
variable {document : Document} {targets : List Identifier} {history : History}

/-- A history that passes under retention can have does not change how a run ends. -/
theorem Coherent.run_failure (h : document.Coherent .retain history) :
    ((document.after history).run .retain document.required).failure =
      (document.run .retain).failure := by
  have hstart := coherent_start document .retain
  rw [run,start_eq_after]
  cases hfind : document.required.find? document.clashes with
  | some x =>
    have hpasses := h.passes_failure
    have hothers := hstart.passes_failure
    rw [hfind] at hpasses hothers
    rw [State.run_of_failure hpasses,State.run_of_failure hothers]
  | none =>
    refine (Rearranges.refl document).run_failure (fun x hx => ?_) h hstart
    simpa [clashes] using List.find?_eq_none.mp hfind x hx

/-- After attempts by hand, a run under retention fails as a run from the start does, or succeeds as
it does. The blocks that were emitted by hand, those of the run and its trailing phases then lay the
document out. -/
theorem listing_after_attempts {before : List Placed} {state : State}
    (htargets : ∀ t ∈ targets, t ∈ document.required)
    (hattempts : (State.start document).attemptAll .retain targets = (before,state)) :
    (∀ failure, (state.run .retain document.required).listing document = .error failure ↔
        document.listing .retain = .error failure) ∧
      ((∃ code, (state.run .retain document.required).listing document = .ok code) ↔
        ∃ code, document.listing .retain = .ok code) ∧
      ∀ code later, document.listing .retain = .ok code →
        (state.run .retain document.required).listing document = .ok later →
        ∃ first second, (document.run .retain).declared.Perm (first ++ second) ∧
          document.LaidOut (document.run .retain).declared code ∧
          document.LaidOut (first ++ second)
            (before.map (fun p => document.code p.statement) ++ later) ∧
          before.map (fun p => document.code p.statement) = first.flatMap document.blockCode ∧
          later = second.flatMap document.blockCode ++
            document.trailingCode (document.run .retain).declared := by
  -- The attempts lead to a history, and they emit the blocks of what it has declared.
  obtain ⟨events,hturns,hemitted⟩ := State.attemptAll_turns (State.start document) htargets
  rw [hattempts] at hturns hemitted
  obtain ⟨history,new,rfl,hcoherent,hdeclared,hblocks⟩ :=
    hturns.history document.start_eq_after (coherent_start document .retain)
  rw [History.start,List.append_nil] at hdeclared
  subst hdeclared
  have hfailure := hcoherent.run_failure
  refine ⟨fun failure => ?_,?_,?_⟩
  · rw [listing,Run.listing_eq_error_iff,Run.listing_eq_error_iff,hfailure]
  · rw [listing,Run.exists_listing_eq_ok_iff,Run.exists_listing_eq_ok_iff,hfailure]
  · intro code later hcode hlater
    obtain ⟨hnone,rfl⟩ := Run.listing_eq_ok_iff.mp hlater
    obtain ⟨added,hordered,hrun,hall⟩ := run_after_of_ok hcoherent hnone
    have hcodeLaidOut := laidOut_of_listing hcode
    have hbefore : before = document.blocks history.declared := hemitted.symm.trans hblocks
    -- The run adds its blocks behind these, so both together are the blocks of one order.
    have hlaidOut := hordered.laidOut hall
    rw [List.reverse_append,blocks_append,List.append_assoc,← hbefore,← hrun,
      List.map_append] at hlaidOut
    obtain ⟨hperm,htrailing⟩ := hcodeLaidOut.perm hlaidOut
    refine ⟨_,_,hperm,hcodeLaidOut,hlaidOut,?_,?_⟩
    · rw [hbefore,map_code_blocks]
    · rw [hrun,List.map_append,map_code_blocks,map_code_trailing,htrailing,← List.reverse_append]
      exact congrArg _ (trailingCode_congr fun x => List.mem_reverse.symm)

/-- The panel is tried too early and the icon once too often. The run declares what the attempts have
not. -/
theorem listing_after_attempts_dressed :
    ∃ before state code later, (∀ t ∈ [⟨"panel"⟩,⟨"icon"⟩,⟨"icon"⟩], t ∈ dressed.required) ∧
      (State.start dressed).attemptAll .retain [⟨"panel"⟩,⟨"icon"⟩,⟨"icon"⟩] = (before,state) ∧
      before.map (·.position) = [5] ∧ dressed.listing .retain = .ok code ∧
      (state.run .retain dressed.required).listing dressed = .ok later ∧
      dressed.LaidOut [⟨"label"⟩,⟨"icon"⟩,⟨"panel"⟩] code ∧
      ∃ first second, [⟨"label"⟩,⟨"icon"⟩,⟨"panel"⟩].Perm (first ++ second) ∧
        dressed.LaidOut (first ++ second)
          (before.map (fun p => dressed.code p.statement) ++ later) := by
  have htargets : ∀ t ∈ [⟨"panel"⟩,⟨"icon"⟩,⟨"icon"⟩], t ∈ dressed.required := by decide
  obtain ⟨_,hok,hlaidOut⟩ := listing_after_attempts htargets rfl
  obtain ⟨code,hcode⟩ : ∃ code, dressed.listing .retain = .ok code :=
    Run.exists_listing_eq_ok_iff.mpr (by decide +kernel)
  obtain ⟨later,hlater⟩ := hok.mpr ⟨code,hcode⟩
  obtain ⟨first,second,hperm,hall,hlaidOut,_⟩ := hlaidOut code later hcode hlater
  have hdeclared : (dressed.run .retain).declared = [⟨"label"⟩,⟨"icon"⟩,⟨"panel"⟩] := by
    decide +kernel
  rw [hdeclared] at hperm hall
  exact ⟨_,_,code,later,htargets,rfl,by decide +kernel,hcode,hlater,hall,first,second,hperm,hlaidOut⟩

end Document

end ObjectGraph
