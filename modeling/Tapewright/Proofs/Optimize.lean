import Tapewright.Proofs.Clearing
import Tapewright.Proofs.FoldedTree

namespace Tapewright.Peephole

open Interpreter LoopTree

/-! The peephole passes preserve meaning.

Each pass turns the tree of a program into another tree that evaluates alike, and a run
follows the evaluation of its tree.  What the passes may change is the number of steps, the
op indices, and a data pointer that nothing will use any more.
-/

variable {policy : BoundsPolicy} {place : Nat → Nat} {program optimized : Program}
  {tree middle other : LoopTree} {state : State}

/-- Optimized ops nest, and their tree is the given one cleared and then folded. -/
theorem optimize_nests {ops : List Op} (nests : Nests 0 ops tree) (fits : tree.Fits) :
    ∃ place middle other, Clears place tree middle ∧ Folds middle other ∧
      Nests 0 (optimize ops) other ∧ other.Fits := by
  obtain ⟨middle, clearedOps, clears, middleNests, clearedStack, _, middleFits⟩ :=
    exists_clears nests [] [] rfl
  obtain ⟨other, foldedOps, folds, otherNests, foldedStack, _, otherFits⟩ :=
    @exists_folds 0 clearedOps middle middleNests 0 [] [] (by simp) rfl (Nat.le_refl 0) (by simp)
  have afterClearing : clearLoops ops = clearedOps := by
    have stack : ops.foldl pushClearing [] = clearedOps.reverse := by
      simpa [cleared] using clearedStack
    rw [clearLoops, stack, List.reverse_reverse]
  have afterFolding : optimize ops = foldedOps := by
    have stack : clearedOps.foldl pushFolding [] = foldedOps.reverse := by
      simpa using foldedStack
    rw [optimize, afterClearing, foldRuns, stack, List.reverse_reverse]
  rw [afterFolding]
  exact ⟨_, middle, other, clears, folds, otherNests, otherFits (middleFits fits)⟩

theorem finish_pointer (state : State) (pointer : UInt64) :
    finish { state with pointer } = ((finish state).1, { (finish state).2 with pointer }) := by
  simp only [finish]
  split <;> rfl

theorem Matches.result {progress another : Progress}
    (same : Matches Drift (relocate place progress) another)
    (stays : ∀ ending last, progress.result = some (ending, last) → ending.isOffTape = false) :
    ∃ pointer, another.result =
      progress.result.map fun outcome => (outcome.1, { outcome.2 with pointer }) := by
  cases progress with
  | completed state =>
      cases same with
      | @completed _ final drift =>
          refine ⟨final.pointer, ?_⟩
          rw [drift.rest, Progress.result, finish_pointer]
          rfl
  | unfinished =>
      cases same
      exact ⟨0, rfl⟩
  | ended ending last =>
      have onTape := stays ending last rfl
      cases ending with
      | finished =>
          cases same with
          | lost off => cases off
      | faulted fault =>
          cases same with
          | @faulted _ _ final rest =>
              refine ⟨final.pointer, ?_⟩
              rw [rest]
              rfl
          | lost off => cases off
      | pointerOutOfBounds pointer index => cases onTape
      | crashed size index => cases onTape

/-- Two programs run on the same state with the same effects. -/
structure Alike (policy : BoundsPolicy) (program optimized : Program) (state : State) : Prop where
  forward : ∀ {fuel ending last}, run policy program fuel state = some (ending, last) →
    ∃ other final, run policy optimized other state = some (ending, final) ∧
      final.tape = last.tape ∧ final.input = last.input ∧ final.output = last.output
  backward : ∀ {fuel ending last}, run policy optimized fuel state = some (ending, last) →
    ∃ other final, run policy program other state = some (ending, final)

theorem alike_of_trees (clears : Clears place tree middle) (folds : Folds middle other)
    (placed : tree.Placed program 0 program.size)
    (otherPlaced : other.Placed optimized 0 optimized.size) (home : Home state)
    (stays : StaysOnTape policy program state) : Alike policy program optimized state := by
  have here : state.at 0 = state := by rw [← home.index]; rfl
  -- Enough rounds for the run at hand and for every clear loop.
  have results (rounds : Nat) (enough : 0x100000000 ≤ rounds) : ∃ pointer,
      (evalRounds policy rounds other state).result =
        (evalRounds policy rounds tree state).result.map
          fun outcome => (outcome.1, { outcome.2 with pointer }) := by
    have same : Matches Drift (evalRounds policy rounds middle state)
        (evalRounds policy rounds other state) := folds.evalRounds_matches home
    rw [clears.evalRounds_eq enough] at same
    refine same.result fun ending last result => ?_
    obtain ⟨fuel, final, ended, _⟩ := run_of_result (evalRounds_follows placed rounds state) result
    exact stays fuel ending final (here ▸ ended)
  constructor
  · intro fuel ending last ended
    obtain ⟨pointer, result⟩ := results (max fuel 0x100000000) (Nat.le_max_right ..)
    obtain ⟨final, finalResult, finalSame⟩ := result_of_run
      (evalRounds_follows placed (max fuel 0x100000000) state) (Nat.le_max_left ..) (here.symm ▸ ended)
    rw [finalResult] at result
    obtain ⟨more, otherLast, otherEnded, otherSame⟩ := run_of_result
      (evalRounds_follows otherPlaced (max fuel 0x100000000) state) result
    refine ⟨more, otherLast, here ▸ otherEnded, ?_⟩
    simp only [State.at, State.mk.injEq] at finalSame otherSame
    obtain ⟨_, _, tape, input, output⟩ := finalSame
    obtain ⟨_, _, otherTape, otherInput, otherOutput⟩ := otherSame
    exact ⟨otherTape.trans tape.symm, otherInput.trans input.symm, otherOutput.trans output.symm⟩
  · intro fuel ending last ended
    obtain ⟨pointer, result⟩ := results (max fuel 0x100000000) (Nat.le_max_right ..)
    obtain ⟨final, finalResult, _⟩ := result_of_run
      (evalRounds_follows otherPlaced (max fuel 0x100000000) state) (Nat.le_max_left ..)
      (here.symm ▸ ended)
    rw [finalResult] at result
    obtain ⟨⟨originalEnding, original⟩, originalResult, same⟩ := Option.map_eq_some_iff.mp result.symm
    obtain ⟨rfl, _⟩ := Prod.mk.inj same
    obtain ⟨more, originalLast, originalEnded, _⟩ := run_of_result
      (evalRounds_follows placed (max fuel 0x100000000) state) originalResult
    exact ⟨more, originalLast, here ▸ originalEnded⟩

/-- Optimizing preserves meaning.  Ops that resolve still do so when optimized, and where a
run of the program touches only cells of the tape, a run of the optimized program does so too,
ends when it ends, and leaves the same tape and the same streams. -/
theorem resolve_optimize {ops : List Op} (resolved : Program.resolve ops = .ok program) :
    ∃ optimized, Program.resolve (optimize ops) = .ok optimized ∧
      ∀ policy tape input output, tape.size ≤ 0x80000000 →
        StaysOnTape policy program (.start tape input output) →
        StaysOnTape policy optimized (.start tape input output) ∧
        (Terminates policy optimized (.start tape input output) ↔
          Terminates policy program (.start tape input output)) ∧
        ∀ fuel ending last other ending' last',
          run policy program fuel (.start tape input output) = some (ending, last) →
          run policy optimized other (.start tape input output) = some (ending', last') →
          ending' = ending ∧ last'.tape = last.tape ∧ last'.input = last.input ∧
            last'.output = last.output := by
  obtain ⟨tree, nests, fits, placed⟩ := Program.placed_of_resolve resolved
  obtain ⟨place, middle, other, clears, folds, otherNests, otherFits⟩ := optimize_nests nests fits
  obtain ⟨optimized, otherResolved, otherPlaced⟩ := Program.resolve_of_nests otherNests otherFits
  refine ⟨optimized, otherResolved, fun policy tape input output small stays => ?_⟩
  have home : Home (.start tape input output) := ⟨rfl, (by decide : 0 < 0x80000000), small⟩
  have alike := alike_of_trees clears folds placed otherPlaced home stays
  refine ⟨?_, ⟨?_, ?_⟩, ?_⟩
  · intro fuel ending last ended
    obtain ⟨more, final, originalEnded⟩ := alike.backward ended
    exact stays more ending final originalEnded
  · rintro ⟨fuel, ending, last, ended⟩
    obtain ⟨more, final, originalEnded⟩ := alike.backward ended
    exact ⟨more, ending, final, originalEnded⟩
  · rintro ⟨fuel, ending, last, ended⟩
    obtain ⟨more, final, otherEnded, _⟩ := alike.forward ended
    exact ⟨more, ending, final, otherEnded⟩
  · intro fuel ending last more ending' last' ended otherEnded
    obtain ⟨_, final, finalEnded, same⟩ := alike.forward ended
    obtain ⟨rfl, rfl⟩ := Prod.mk.inj (run_unique finalEnded otherEnded)
    exact ⟨rfl, same⟩

theorem resolve_optimize_clear_loop :
    ∃ optimized, Program.resolve (optimize (Source.ops "++[-]>++.")) = .ok optimized ∧
      ∃ fuel last, run .checked optimized fuel (.start (.zeroed 2) (.ofBytes []) .unlimited) =
        some (.finished, last) ∧ last.tape = ⟨#[0, 2]⟩ ∧ last.output = ⟨#[2], [], none, 1⟩ := by
  have direct : ∃ program, Program.resolve (Source.ops "++[-]>++.") = .ok program ∧
      (run .checked program 20 (.start (.zeroed 2) (.ofBytes []) .unlimited)).map
        (fun outcome => (outcome.1, outcome.2.tape, outcome.2.output)) =
        some (.finished, ⟨#[0, 2]⟩, ⟨#[2], [], none, 1⟩) := ⟨_, rfl, by decide⟩
  obtain ⟨program, resolved, ran⟩ := direct
  obtain ⟨⟨ending, last⟩, ended, same⟩ := Option.map_eq_some_iff.mp ran
  simp only [Prod.mk.injEq] at same
  obtain ⟨rfl, tape, output⟩ := same
  obtain ⟨optimized, otherResolved, preserved⟩ := resolve_optimize resolved
  obtain ⟨_, terminates, agrees⟩ :=
    preserved .checked (.zeroed 2) (.ofBytes []) .unlimited (by decide) (.of_run ended rfl)
  obtain ⟨fuel, ending', last', otherEnded⟩ := terminates.mpr ⟨20, _, last, ended⟩
  obtain ⟨rfl, sameTape, _, sameOutput⟩ := agrees _ _ _ _ _ _ ended otherEnded
  exact ⟨optimized, otherResolved, fuel, last', otherEnded, sameTape.trans tape,
    sameOutput.trans output⟩

end Tapewright.Peephole
