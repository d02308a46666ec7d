import Tapewright.Proofs.BoundsChecks
import Tapewright.Proofs.Clearing

namespace Tapewright.Peephole

open Interpreter LoopTree

/-! Clearing is exact.

The clearing pass shortens a run and moves its ops to smaller indices.  Nothing else about the run
changes, not even where it leaves the tape: the loop start that touches a missing cell has become
an assignment that touches the same cell, and it stands where the ops before it were cleared to.
-/

variable {policy : BoundsPolicy} {place : Nat → Nat} {program shorter : Program}
  {tree other : LoopTree} {tape : Tape} {input : Input} {output : Output}

theorem clearLoops_nests {ops : List Op} (nests : Nests 0 ops tree) (fits : tree.Fits) :
    ∃ other, Clears (fun index => (clearLoops (ops.take index)).length) tree other ∧
      Nests 0 (clearLoops ops) other ∧ other.Fits := by
  obtain ⟨other, out, clears, outNests, stack, _, outFits⟩ := exists_clears nests [] [] rfl
  have whole : clearLoops ops = out := by
    simpa [clearLoops, cleared] using congrArg List.reverse stack
  have places : clearedPlace ([] ++ ops ++ []) =
      fun index => (clearLoops (ops.take index)).length := by
    funext index
    rw [clearLoops, List.length_reverse, List.nil_append, List.append_nil]
    rfl
  rw [places] at clears
  rw [whole]
  exact ⟨other, clears, outNests, outFits fits⟩

theorem relocateEnding_finish (state : State) :
    relocateEnding place (finish state).1 = (finish state).1 := by
  rcases flushed : state.output.flush with ⟨_ | fault, output⟩ <;> simp only [finish, flushed] <;> rfl

theorem result_relocate (place : Nat → Nat) (progress : Progress) :
    (relocate place progress).result =
      progress.result.map fun outcome => (relocateEnding place outcome.1, outcome.2) := by
  cases progress with
  | completed after =>
      simp only [relocate, Progress.result, Option.map_some, relocateEnding_finish]
  | ended ending last => rfl
  | unfinished => rfl

theorem isOffTape_relocateEnding (ending : Ending) :
    (relocateEnding place ending).isOffTape = ending.isOffTape := by
  cases ending <;> rfl

section Runs

variable (clears : Clears place tree other) (placed : tree.Placed program 0 program.size)
  (otherPlaced : other.Placed shorter 0 shorter.size)

include clears placed otherPlaced

theorem Clears.run_cleared {fuel : Nat} {ending : Ending} {last : State}
    (ended : run policy program fuel (.start tape input output) = some (ending, last)) :
    ∃ more final, run policy shorter more (.start tape input output) = some (relocateEnding place ending, final) ∧
      final.at 0 = last.at 0 := by
  -- Enough rounds for the run at hand and for every clear loop.
  let rounds := max fuel 0x100000000
  obtain ⟨reached, result, same⟩ :=
    result_of_run (evalRounds_follows placed rounds (.start tape input output)) (Nat.le_max_left ..) ended
  have cleared := result_relocate place (evalRounds policy rounds tree (.start tape input output))
  rw [← clears.evalRounds_eq (Nat.le_max_right ..), result] at cleared
  obtain ⟨more, final, otherEnded, otherSame⟩ :=
    run_of_result (evalRounds_follows otherPlaced rounds (.start tape input output)) cleared
  exact ⟨more, final, otherEnded, otherSame.trans same.symm⟩

theorem Clears.terminates_of_cleared (ends : Terminates policy shorter (.start tape input output)) :
    Terminates policy program (.start tape input output) := by
  obtain ⟨fuel, ending, last, ended⟩ := ends
  let rounds := max fuel 0x100000000
  obtain ⟨reached, result, -⟩ :=
    result_of_run (evalRounds_follows otherPlaced rounds (.start tape input output)) (Nat.le_max_left ..) ended
  rw [clears.evalRounds_eq (Nat.le_max_right ..), result_relocate] at result
  obtain ⟨⟨original, before⟩, originalResult, -⟩ := Option.map_eq_some_iff.mp result
  obtain ⟨more, final, originalEnded, -⟩ :=
    run_of_result (evalRounds_follows placed rounds (.start tape input output)) originalResult
  exact ⟨more, original, final, originalEnded⟩

/-- Where a run leaves the tape, the op that does so stands where clearing puts it. -/
theorem Clears.index_cleared {fuel more : Nat} {ending ending' : Ending} {last last' : State}
    (ended : run policy program fuel (.start tape input output) = some (ending, last))
    (otherEnded : run policy shorter more (.start tape input output) = some (ending', last'))
    (off : ending.isOffTape = true) (otherOff : ending'.isOffTape = true) :
    last'.index = place last.index := by
  obtain ⟨pointer, reported⟩ := checked_of_offTape ended off
  obtain ⟨otherPointer, otherReported⟩ := checked_of_offTape otherEnded otherOff
  obtain ⟨_, final, alsoReported, -⟩ := clears.run_cleared placed otherPlaced reported
  have same := (Prod.mk.inj (run_unique otherReported alsoReported)).1
  exact (Ending.pointerOutOfBounds.inj same).2

end Runs

/-- Clearing is exact, even off the tape.  Cleared ops resolve, and a run of the cleared program ends
if and only if a run of the program does, in the same way and with the same pointer, tape and
streams.  If it ends off the tape, it does so at the op that the ops before the touch clear to. -/
theorem clearLoops_exact {ops : List Op} (resolved : Program.resolve ops = .ok program) :
    ∃ shorter, Program.resolve (clearLoops ops) = .ok shorter ∧
      ∀ policy tape input output,
        (Terminates policy shorter (.start tape input output) ↔
          Terminates policy program (.start tape input output)) ∧
        ∀ fuel ending last more ending' last',
          run policy program fuel (.start tape input output) = some (ending, last) →
          run policy shorter more (.start tape input output) = some (ending', last') →
          last'.tape = last.tape ∧ last'.input = last.input ∧ last'.output = last.output ∧
            last'.pointer = last.pointer ∧
            ending' = relocateEnding (fun index => (clearLoops (ops.take index)).length) ending ∧
            (ending.isOffTape = true →
              last'.index = (clearLoops (ops.take last.index)).length) := by
  obtain ⟨tree, nests, fits, placed⟩ := Program.placed_of_resolve resolved
  obtain ⟨other, clears, otherNests, otherFits⟩ := clearLoops_nests nests fits
  obtain ⟨shorter, otherResolved, otherPlaced⟩ := Program.resolve_of_nests otherNests otherFits
  refine ⟨shorter, otherResolved, fun policy tape input output => ⟨⟨?_, ?_⟩, ?_⟩⟩
  · exact clears.terminates_of_cleared placed otherPlaced
  · rintro ⟨fuel, ending, last, ended⟩
    obtain ⟨more, final, otherEnded, -⟩ := clears.run_cleared placed otherPlaced ended
    exact ⟨more, _, final, otherEnded⟩
  · intro fuel ending last more ending' last' ended otherEnded
    obtain ⟨_, final, alsoEnded, same⟩ := clears.run_cleared placed otherPlaced ended
    obtain ⟨rfl, rfl⟩ := Prod.mk.inj (run_unique otherEnded alsoEnded)
    simp only [State.at, State.mk.injEq] at same
    obtain ⟨-, pointer, sameTape, sameInput, sameOutput⟩ := same
    refine ⟨sameTape, sameInput, sameOutput, pointer, rfl, fun off => ?_⟩
    exact clears.index_cleared placed otherPlaced ended otherEnded off
      ((isOffTape_relocateEnding ending).trans off)

/-- In `[-]<[-]+` the second loop leaves the tape at op 4, and so does the assignment at op 2. -/
theorem clearLoops_exact_left_of_tape :
    ∃ program shorter, Program.resolve (Source.ops "[-]<[-]+") = .ok program ∧
      Program.resolve (clearLoops (Source.ops "[-]<[-]+")) = .ok shorter ∧
      ∃ fuel last more last',
        run .checked program fuel (.start ⟨#[3]⟩ (.ofBytes []) .unlimited) =
          some (.pointerOutOfBounds (-1) 4, last) ∧
        run .checked shorter more (.start ⟨#[3]⟩ (.ofBytes []) .unlimited) =
          some (.pointerOutOfBounds (-1) 2, last') ∧ last'.tape = ⟨#[0]⟩ := by
  have direct : ∃ program, Program.resolve (Source.ops "[-]<[-]+") = .ok program ∧
      (run .checked program 20 (.start ⟨#[3]⟩ (.ofBytes []) .unlimited)).map
        (fun outcome => (outcome.1, outcome.2.tape)) =
        some (.pointerOutOfBounds (-1) 4, ⟨#[0]⟩) := ⟨_, rfl, by decide⟩
  obtain ⟨program, resolved, ran⟩ := direct
  obtain ⟨⟨ending, last⟩, ended, same⟩ := Option.map_eq_some_iff.mp ran
  obtain ⟨rfl, tape⟩ := Prod.mk.inj same
  obtain ⟨shorter, otherResolved, exact_⟩ := clearLoops_exact resolved
  obtain ⟨terminates, agrees⟩ := exact_ .checked ⟨#[3]⟩ (.ofBytes []) .unlimited
  obtain ⟨more, ending', last', otherEnded⟩ := terminates.mpr ⟨20, _, last, ended⟩
  obtain ⟨sameTape, -, -, -, rfl, -⟩ := agrees _ _ _ _ _ _ ended otherEnded
  exact ⟨program, shorter, resolved, otherResolved, 20, last, more, last', ended, otherEnded,
    sameTape.trans tape⟩

end Tapewright.Peephole
