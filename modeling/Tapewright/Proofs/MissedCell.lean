import Tapewright.Proofs.BoundsChecks

namespace Tapewright.Interpreter

/-! What an op leaves behind that misses the tape.

An op whose cell is off the tape ends the run in the state that the ops before it have left.  Only
an op that reads is late: it looks up its cell when it already has the byte.
-/

variable {policy : BoundsPolicy} {program : Program} {op : Op} {state last : State}

/-- An op touches a cell off the tape, and this is what the run ends with. -/
structure Misses (program : Program) (op : Op) (before last : State) : Prop where
  found : program.ops[before.index]? = some op
  touches : op.opcode.touches = true
  off : before.tape.get? before.pointer = none
  tape : last.tape = before.tape
  output : last.output = before.output
  /-- An op that does not read leaves the input alone, too. -/
  idle : op.opcode ≠ .input → last.input = before.input
  /-- An op that reads has taken what one successful read takes. -/
  read : op.opcode = .input → ∃ value, before.input.getCell = (.ok value, last.input)

theorem misses_of_step {ending : Ending} (ended : step policy program state = .ended ending last)
    (offTape : ending.isOffTape = true) :
    ending = state.lost policy ∧ ∃ op, Misses program op state last := by
  obtain ⟨op, found, touches, beyond, reads⟩ := strays_iff_step.mpr ⟨ending, last, ended, offTape⟩
  have off : state.tape.get? state.pointer = none := Tape.get?_eq_none_iff.mpr beyond
  by_cases read : op.opcode = .input
  · obtain ⟨value, input, taken⟩ := reads read
    cases (step_missing_read found read off taken).symm.trans ended
    exact ⟨rfl, op, found, touches, off, rfl, rfl, fun other => absurd read other,
      fun _ => ⟨value, taken⟩⟩
  · cases (step_missing found touches off read).symm.trans ended
    exact ⟨rfl, op, found, touches, off, rfl, rfl, fun _ => rfl, fun reads => absurd reads read⟩

/-- A run that has ended went on up to one last step. -/
theorem ended_of_run {fuel : Nat} {ending : Ending}
    (ended : run policy program fuel state = some (ending, last)) :
    ∃ count before, after policy program count state = some before ∧
      step policy program before = .ended ending last := by
  induction fuel generalizing state with
  | zero => cases ended
  | succ fuel ih =>
      rw [run] at ended
      cases stepped : step policy program state with
      | running next =>
          rw [stepped] at ended
          obtain ⟨count, before, reached, stops⟩ := ih ended
          refine ⟨count + 1, before, ?_, stops⟩
          rw [after, stepped]
          exact reached
      | ended reason final =>
          rw [stepped] at ended
          cases ended
          exact ⟨0, state, rfl, stepped⟩

/-- A run reports that the pointer left the tape from the state to which the ops before have led, and
at the op that comes next there.  That op has changed no cell and written nothing, and unless it is a
read it has taken no input.  A read has taken what a successful read takes. -/
theorem overrun_misses (program : Program) (tape : Tape) (input : Input) (output : Output)
    {fuel index : Nat} {pointer : Int} {last : State}
    (ended : run .checked program fuel (.start tape input output) =
      some (.pointerOutOfBounds pointer index, last)) :
    ∃ count before op, after .checked program count (.start tape input output) = some before ∧
      step .checked program before = .ended (.pointerOutOfBounds pointer index) last ∧
      before.index = index ∧ Misses program op before last := by
  obtain ⟨count, before, reached, stops⟩ := ended_of_run ended
  obtain ⟨reported, op, misses⟩ := misses_of_step stops rfl
  obtain ⟨-, rfl⟩ := Ending.pointerOutOfBounds.inj reported
  exact ⟨count, before, op, reached, stops, rfl, misses⟩

/-- In `,.<.` the second output misses the tape, with one byte read and written before it. -/
theorem overrun_misses_output :
    ∃ program last, Program.resolve (Source.ops ",.<.") = .ok program ∧
      run .checked program 4 (.start (.zeroed 2) (.ofBytes [65, 66]) .unlimited) =
        some (.pointerOutOfBounds (-1) 3, last) ∧
      last.output.accepted = #[65] ∧ last.input.taken = 1 ∧
      ∃ count before op, after .checked program count
          (.start (.zeroed 2) (.ofBytes [65, 66]) .unlimited) = some before ∧
        step .checked program before = .ended (.pointerOutOfBounds (-1) 3) last ∧
        before.index = 3 ∧ Misses program op before last := by
  have direct : ∃ program last, Program.resolve (Source.ops ",.<.") = .ok program ∧
      run .checked program 4 (.start (.zeroed 2) (.ofBytes [65, 66]) .unlimited) =
        some (.pointerOutOfBounds (-1) 3, last) ∧
      last.output.accepted = #[65] ∧ last.input.taken = 1 := ⟨_, _, rfl, rfl, rfl, rfl⟩
  obtain ⟨program, last, resolved, ended, accepted, taken⟩ := direct
  exact ⟨program, last, resolved, ended, accepted, taken, overrun_misses program _ _ _ ended⟩

/-- In `<,` the read misses the tape, and the byte it has taken is lost. -/
theorem missed_read_takes_byte :
    ∃ program before last, Program.resolve (Source.ops "<,") = .ok program ∧
      after .checked program 1 (.start (.zeroed 2) (.ofBytes [65]) .unlimited) = some before ∧
      step .checked program before = .ended (.pointerOutOfBounds (-1) 1) last ∧
      run .checked program 2 (.start (.zeroed 2) (.ofBytes [65]) .unlimited) =
        some (.pointerOutOfBounds (-1) 1, last) ∧
      before.input = .ofBytes [65] ∧ last.input = ⟨[], 1⟩ :=
  ⟨_, _, _, rfl, rfl, rfl, rfl, rfl, rfl⟩

end Tapewright.Interpreter
