import Mathlib.Algebra.Ring.Int.Defs
import Tapewright.Proofs.StructuredRun

namespace Tapewright

/-! Runs with and without bounds checks.

Whether bounds are checked makes no difference to the ops that a run executes or to the states it
goes through.  It only decides how a run ends that touches a cell off the tape: with a report that
gives the pointer as a signed number and names the op, or with a crash that gives the same word as
an index.  That word is the sum of all the moves on the way there.
-/

/-- Whether an op looks up the current cell.  Moves of the pointer and loop ends do not. -/
def Opcode.touches : Opcode → Bool
  | .shiftRight | .shiftLeft | .loopEnd => false
  | .increment | .decrement | .output | .input | .loopStart | .assign => true

/-- The exact distance by which an op moves the data pointer. -/
def Op.travel (op : Op) : Int :=
  match op.opcode with
  | .shiftRight => op.operand.toInt
  | .shiftLeft => -op.operand.toInt
  | _ => 0

namespace Interpreter

/-- All that the next op can do, under either policy.  An op leads on to one state, it ends the run
in one way, or it touches a cell off the tape, and then it has at most taken input.  Only an op that
touches its cell can end a run. -/
inductive NextStep (program : Program) (state : State) : Prop where
  | runs (op : Op) (next : State) (found : program.ops[state.index]? = some op)
      (goes : ∀ policy, step policy program state = .running next)
      (moves : (next.pointer.toNat : Int) = (state.pointer.toNat + op.travel) % 0x10000000000000000)
      (size : next.tape.size = state.tape.size)
  | ends (ending : Ending) (last : State) (onTape : ending.isOffTape = false)
      (touches : ∀ op, program.ops[state.index]? = some op → op.opcode.touches = true)
      (stops : ∀ policy, step policy program state = .ended ending last)
  | leaves (op : Op) (last : State) (found : program.ops[state.index]? = some op)
      (touches : op.opcode.touches = true) (off : state.tape.get? state.pointer = none)
      (rest : last = { state with input := last.input })
      (stops : ∀ policy, step policy program state = .ended (state.lost policy) last)

theorem nextStep (program : Program) (state : State) : NextStep program state := by
  have still : (state.pointer.toNat : Int) = (state.pointer.toNat + 0) % 0x10000000000000000 := by
    have bound := state.pointer.toNat_lt
    omega
  cases found : program.ops[state.index]? with
  | none =>
      rcases flushed : state.output.flush with ⟨_ | fault, output⟩
      · exact .ends .finished { state with output } rfl (by simp [found]) fun _ => by
          simp only [step, found, finish, flushed]
      · exact .ends (.faulted fault) { state with output } rfl (by simp [found]) fun _ => by
          simp only [step, found, finish, flushed]
  | some op =>
      obtain ⟨opcode, operand⟩ := op
      cases opcode with
      | shiftRight =>
          exact .runs _ { state with
              pointer := state.pointer + Op.reach ⟨.shiftRight, operand⟩, index := state.index + 1 }
            found (fun _ => by simp only [step, found, act]) (toNat_add_reach ..) rfl
      | shiftLeft =>
          exact .runs _ { state with
              pointer := state.pointer - Op.reach ⟨.shiftLeft, operand⟩, index := state.index + 1 }
            found (fun _ => by simp only [step, found, act]) (toNat_sub_reach ..) rfl
      | loopEnd =>
          exact .runs _ (state.at (Op.target ⟨.loopEnd, operand⟩)) found
            (fun _ => by simp only [step, found, State.at]) still rfl
      | loopStart =>
          cases cell : state.tape.get? state.pointer with
          | none => exact .leaves _ state found rfl cell rfl fun _ => by simp only [step, found, cell]
          | some value =>
              by_cases zero : value = 0
              · exact .runs _ (state.at (Op.target ⟨.loopStart, operand⟩ + 1)) found
                  (fun _ => by simp only [step, found, cell, if_pos zero, State.at]) still rfl
              · exact .runs _ (state.at (state.index + 1)) found
                  (fun _ => by simp only [step, found, cell, if_neg zero, State.at]) still rfl
      | increment | decrement | assign =>
          cases cell : state.tape.get? state.pointer with
          | none => exact .leaves _ state found rfl cell rfl fun _ => by simp only [step, found, act, cell]
          | some value =>
              exact .runs _ { state with tape := state.tape.set state.pointer _, index := _ } found
                (fun _ => by simp only [step, found, act, cell]; rfl) still (Tape.size_set ..)
      | output =>
          cases cell : state.tape.get? state.pointer with
          | none => exact .leaves _ state found rfl cell rfl fun _ => by simp only [step, found, act, cell]
          | some value =>
              rcases written : state.output.putCell value with ⟨_ | fault, output⟩
              · exact .runs _ { state with output, index := state.index + 1 } found
                  (fun _ => by simp only [step, found, act, cell, written]) still rfl
              · exact .ends (.faulted fault) { state with output } rfl (by simp [found, Opcode.touches]) fun _ => by
                  simp only [step, found, act, cell, written]
      | input =>
          rcases read : state.input.getCell with ⟨fault | value, input⟩
          · exact .ends (.faulted fault) { state with input } rfl (by simp [found, Opcode.touches]) fun _ => by
              simp only [step, found, act, read]
          · cases cell : state.tape.get? state.pointer with
            | none =>
                exact .leaves _ { state with input } found rfl cell rfl fun _ => by
                  simp only [step, found, act, read, cell]
            | some old =>
                exact .runs _
                  { state with input, tape := state.tape.set state.pointer value, index := state.index + 1 }
                  found (fun _ => by simp only [step, found, act, read, cell]) still (Tape.size_set ..)

section Missing

variable {policy : BoundsPolicy} {program : Program} {op : Op} {state : State}

theorem step_missing (found : program.ops[state.index]? = some op)
    (touches : op.opcode.touches = true) (off : state.tape.get? state.pointer = none)
    (other : op.opcode ≠ .input) :
    step policy program state = .ended (state.lost policy) state := by
  obtain ⟨opcode, operand⟩ := op
  cases opcode with
  | input => exact absurd rfl other
  | shiftRight | shiftLeft | loopEnd => cases touches
  | increment | decrement | assign | output | loopStart => simp only [step, found, act, off]

theorem step_missing_read {input : Input} {value : Int32}
    (found : program.ops[state.index]? = some op) (reads : op.opcode = .input)
    (off : state.tape.get? state.pointer = none)
    (taken : state.input.getCell = (.ok value, input)) :
    step policy program state = .ended (state.lost policy) { state with input } := by
  simp only [step, found, reads, act, taken, off]

theorem step_failing_read {input : Input} {fault : Fault}
    (found : program.ops[state.index]? = some op) (reads : op.opcode = .input)
    (failed : state.input.getCell = (.error fault, input)) :
    step policy program state = .ended (.faulted fault) { state with input } := by
  simp only [step, found, reads, act, failed]

/-- The next op touches a cell off the tape.  An op that reads looks up its cell when it has the
value; a read that fails touches nothing. -/
def State.Strays (program : Program) (state : State) : Prop :=
  ∃ op, program.ops[state.index]? = some op ∧ op.opcode.touches = true ∧
    state.tape.size ≤ state.pointer.toNat ∧
    (op.opcode = .input → ∃ value rest, state.input.getCell = (.ok value, rest))

/-- Wherever an op touches a cell off the tape the run ends, with nothing changed but the input. -/
theorem State.Strays.step_eq (strays : state.Strays program) (policy : BoundsPolicy) :
    ∃ last, step policy program state = .ended (state.lost policy) last ∧
      last = { state with input := last.input } := by
  obtain ⟨op, found, touches, beyond, reads⟩ := strays
  have off : state.tape.get? state.pointer = none := Tape.get?_eq_none_iff.mpr beyond
  by_cases read : op.opcode = .input
  · obtain ⟨value, input, taken⟩ := reads read
    exact ⟨{ state with input }, step_missing_read found read off taken, rfl⟩
  · exact ⟨state, step_missing found touches off read, rfl⟩

/-- Nothing else ends a run off the tape. -/
theorem strays_iff_step :
    state.Strays program ↔
      ∃ ending last, step policy program state = .ended ending last ∧ ending.isOffTape = true := by
  constructor
  · intro strays
    obtain ⟨last, stops, _⟩ := strays.step_eq policy
    exact ⟨_, last, stops, isOffTape_lost ..⟩
  · rintro ⟨ending, last, ended, offTape⟩
    cases nextStep program state with
    | runs _ _ _ goes => cases (goes policy).symm.trans ended
    | ends _ _ onTape _ stops =>
        cases (stops policy).symm.trans ended
        rw [onTape] at offTape
        cases offTape
    | leaves op _ found touches off _ _ =>
        refine ⟨op, found, touches, Tape.get?_eq_none_iff.mp off, fun reads => ?_⟩
        rcases taken : state.input.getCell with ⟨fault | value, input⟩
        · have failed := (step_failing_read found reads taken).symm.trans ended
          rw [← (Step.ended.inj failed).1] at offTape
          cases offTape
        · exact ⟨value, input, rfl⟩

/-- A run ends off the tape exactly when it comes to an op that touches a cell there. -/
theorem strays_iff_run {fuel : Nat} :
    (∃ count before, count < fuel ∧ after policy program count state = some before ∧
        before.Strays program) ↔
      ∃ ending last, run policy program fuel state = some (ending, last) ∧
        ending.isOffTape = true := by
  induction fuel generalizing state with
  | zero => simp [run]
  | succ fuel ih =>
      cases stepped : step policy program state with
      | running next =>
          have onTape : ¬ state.Strays program := by
            intro strays
            obtain ⟨_, stops, _⟩ := strays.step_eq policy
            cases stops.symm.trans stepped
          simp only [run, stepped, ← ih]
          constructor
          · rintro ⟨_ | count, before, less, reached, strays⟩
            · cases reached
              exact absurd strays onTape
            · rw [after, stepped] at reached
              exact ⟨count, before, Nat.lt_of_succ_lt_succ less, reached, strays⟩
          · rintro ⟨count, before, less, reached, strays⟩
            refine ⟨count + 1, before, Nat.succ_lt_succ less, ?_, strays⟩
            rw [after, stepped]
            exact reached
      | ended ending last =>
          have here := @strays_iff_step policy program state
          simp only [stepped, Step.ended.injEq] at here
          simp only [run, stepped, Option.some.injEq, Prod.mk.injEq]
          rw [← here]
          constructor
          · rintro ⟨_ | count, before, _, reached, strays⟩
            · cases reached
              exact strays
            · rw [after, stepped] at reached
              cases reached
          · intro strays
            exact ⟨0, state, Nat.succ_pos fuel, rfl, strays⟩

/-- Both runs go through the same states. -/
theorem after_unchecked (count : Nat) (state : State) :
    after .unchecked program count state = after .checked program count state := by
  induction count generalizing state with
  | zero => rfl
  | succ count ih =>
      cases nextStep program state with
      | runs _ next _ goes => simp only [after, goes, ih]
      | ends _ _ _ _ stops => simp only [after, stops]
      | leaves _ _ _ _ _ _ stops => simp only [after, stops]

end Missing

/-- The ops that a run executes within so many steps, with the one that ends it. -/
def executed (policy : BoundsPolicy) (program : Program) : Nat → State → List Op
  | 0, _ => []
  | fuel + 1, state =>
      match program.ops[state.index]? with
      | none => []
      | some op =>
          match step policy program state with
          | .running next => op :: executed policy program fuel next
          | .ended _ _ => [op]

/-- A run that came to an op that touches a cell off a tape of so many cells.  It started with the
pointer at the origin and has executed the ops; it names the pointer as a number and as a word. -/
structure Overrun (program : Program) (size : Nat) (origin : Int) (ops : List Op) (pointer : Int)
    (word index : Nat) : Prop where
  op : ∃ op, program.ops[index]? = some op ∧ ops.getLast? = some op ∧ op.opcode.touches = true
  outside : pointer < 0 ∨ size ≤ pointer
  signed : -0x8000000000000000 ≤ pointer ∧ pointer < 0x8000000000000000
  same : (word : Int) = pointer % 0x10000000000000000
  travelled : pointer % 0x10000000000000000 =
    (origin + (ops.map Op.travel).sum) % 0x10000000000000000

/-- What a checked and an unchecked run have come to after equally many steps: both are going on,
both have ended in the same way, or the one reports the pointer with which the other crashes. -/
inductive Lockstep (program : Program) (size : Nat) (origin : Int) (ops : List Op) :
    Option (Ending × State) → Option (Ending × State) → Prop where
  | going : Lockstep program size origin ops none none
  | ended {ending : Ending} {last : State} (onTape : ending.isOffTape = false) :
      Lockstep program size origin ops (some (ending, last)) (some (ending, last))
  | overrun {pointer : Int} {word : Nat} {last : State}
      (off : Overrun program size origin ops pointer word last.index) :
      Lockstep program size origin ops (some (.pointerOutOfBounds pointer last.index, last))
        (some (.crashed size word, last))

variable {program : Program} {size : Nat} {origin : Int} {state : State}

theorem Overrun.first {op : Op} {between : Int} {ops : List Op} {pointer : Int} {word index : Nat}
    (off : Overrun program size between ops pointer word index)
    (moves : between = (origin + op.travel) % 0x10000000000000000) :
    Overrun program size origin (op :: ops) pointer word index := by
  obtain ⟨last, found, final, touches⟩ := off.op
  refine ⟨⟨last, found, ?_, touches⟩, off.outside, off.signed, off.same, ?_⟩
  · rw [List.getLast?_cons, final]
    rfl
  · rw [off.travelled, moves, Int.emod_add_emod, List.map_cons, List.sum_cons, Int.add_assoc]

theorem Lockstep.first {op : Op} {between : Int} {ops : List Op}
    {checked unchecked : Option (Ending × State)}
    (lockstep : Lockstep program size between ops checked unchecked)
    (moves : between = (origin + op.travel) % 0x10000000000000000) :
    Lockstep program size origin (op :: ops) checked unchecked := by
  cases lockstep with
  | going => exact .going
  | ended onTape => exact .ended onTape
  | overrun off => exact .overrun (off.first moves)

/-- The pointer that a run reports is the word with which it would crash. -/
theorem toNat_pointer (pointer : UInt64) :
    (pointer.toNat : Int) = pointer.toInt64.toInt % 0x10000000000000000 := by
  rw [← toNat_word64, UInt64.toUInt64_toInt64]

theorem overrun_here {op : Op} (found : program.ops[state.index]? = some op)
    (touches : op.opcode.touches = true) (off : state.tape.get? state.pointer = none) :
    Overrun program state.tape.size state.pointer.toNat [op] state.pointer.toInt64.toInt
      state.pointer.toNat state.index := by
  have word := toNat_pointer state.pointer
  have beyond := Tape.get?_eq_none_iff.mp off
  have still : op.travel = 0 := by
    obtain ⟨opcode, operand⟩ := op
    cases opcode with
    | shiftRight | shiftLeft => cases touches
    | _ => rfl
  have signed : -0x8000000000000000 ≤ state.pointer.toInt64.toInt ∧
      state.pointer.toInt64.toInt < 0x8000000000000000 :=
    ⟨Int64.le_toInt _, Int64.toInt_lt _⟩
  refine ⟨⟨op, found, rfl, touches⟩, ?_, signed, word, ?_⟩
  · omega
  · rw [List.map_singleton, List.sum_singleton, still]
    omega

theorem run_lockstep (program : Program) (fuel : Nat) (state : State) :
    executed .unchecked program fuel state = executed .checked program fuel state ∧
      Lockstep program state.tape.size state.pointer.toNat (executed .checked program fuel state)
        (run .checked program fuel state) (run .unchecked program fuel state) := by
  induction fuel generalizing state with
  | zero => exact ⟨rfl, .going⟩
  | succ fuel ih =>
      cases nextStep program state with
      | runs op next found goes moves size =>
          obtain ⟨same, lockstep⟩ := ih next
          simp only [executed, run, found, goes, same]
          rw [size] at lockstep
          exact ⟨trivial, lockstep.first moves⟩
      | ends ending last onTape _ stops =>
          refine ⟨?_, ?_⟩
          · simp only [executed, stops]
          · simp only [run, stops]
            exact .ended onTape
      | leaves op last found touches off rest stops =>
          have here : last.index = state.index := by rw [rest]
          have overrun := overrun_here found touches off
          simp only [executed, run, found, stops, State.lost]
          rw [← here] at overrun ⊢
          exact ⟨trivial, .overrun overrun⟩

theorem Lockstep.isSome_eq {ops : List Op} {checked unchecked : Option (Ending × State)}
    (lockstep : Lockstep program size origin ops checked unchecked) :
    checked.isSome = unchecked.isSome := by
  cases lockstep <;> rfl

theorem terminates_iff {policy : BoundsPolicy} :
    Terminates policy program state ↔ ∃ fuel, (run policy program fuel state).isSome := by
  simp only [Terminates, Option.isSome_iff_exists, Prod.exists]

/-- Whichever of the two runs leaves the tape, the checked one reports it, in the same state. -/
theorem Lockstep.reports {ops : List Op} {checked unchecked : Option (Ending × State)}
    {ending : Ending} {last : State}
    (lockstep : Lockstep program size origin ops checked unchecked)
    (either : checked = some (ending, last) ∨ unchecked = some (ending, last))
    (off : ending.isOffTape = true) :
    ∃ pointer, checked = some (.pointerOutOfBounds pointer last.index, last) := by
  cases lockstep with
  | going => rcases either with ended | ended <;> cases ended
  | ended onTape =>
      rcases either with ended | ended <;> cases ended <;> exact absurd off (by simp [onTape])
  | @overrun pointer => rcases either with ended | ended <;> cases ended <;> exact ⟨pointer, rfl⟩

theorem Lockstep.crashes {ops : List Op} {checked unchecked : Option (Ending × State)}
    {pointer : Int} {index : Nat} {last : State}
    (lockstep : Lockstep program size origin ops checked unchecked)
    (reported : checked = some (.pointerOutOfBounds pointer index, last)) :
    ∃ word, unchecked = some (.crashed size word, last) ∧
      Overrun program size origin ops pointer word index := by
  cases lockstep with
  | going => cases reported
  | ended onTape => cases reported; cases onTape
  | overrun off => cases reported; exact ⟨_, rfl, off⟩

theorem checked_of_offTape {policy : BoundsPolicy} {fuel : Nat} {ending : Ending} {last : State}
    (ended : run policy program fuel state = some (ending, last)) (off : ending.isOffTape = true) :
    ∃ pointer, run .checked program fuel state =
      some (.pointerOutOfBounds pointer last.index, last) := by
  refine (run_lockstep program fuel state).2.reports ?_ off
  cases policy with
  | checked => exact .inl ended
  | unchecked => exact .inr ended

theorem running_of_not_touches {op : Op} (policy : BoundsPolicy)
    (found : program.ops[state.index]? = some op) (untouched : op.opcode.touches = false) :
    ∃ next, step policy program state = .running next := by
  cases nextStep program state with
  | runs _ next _ goes => exact ⟨next, goes policy⟩
  | ends _ _ _ touches =>
      rw [touches op found] at untouched
      cases untouched
  | leaves other _ alsoFound touches =>
      rw [found] at alsoFound
      cases alsoFound
      rw [untouched] at touches
      cases touches

theorem strays_iff_reported {fuel : Nat} :
    (∃ count before, count < fuel ∧ after .checked program count state = some before ∧
        before.Strays program) ↔
      ∃ pointer index last,
        run .checked program fuel state = some (.pointerOutOfBounds pointer index, last) := by
  rw [strays_iff_run]
  constructor
  · rintro ⟨ending, last, ended, offTape⟩
    obtain ⟨pointer, reported⟩ := checked_of_offTape ended offTape
    exact ⟨pointer, last.index, last, reported⟩
  · rintro ⟨pointer, index, last, reported⟩
    exact ⟨_, last, reported, rfl⟩

/-- Bounds checks only turn crashes into reports.  A checked and an unchecked run execute the same
ops, go through the same states and end at the same moment in the same state.  They end alike unless
an op touches a cell off the tape, and that always ends them: then the checked run reports the
pointer, which is negative or behind the tape, with the index of that op, and the unchecked run
crashes with the same word.  The pointer is the sum of all moves executed so far, modulo 2^64.  No
move and no loop end ever ends a run. -/
theorem checked_unchecked_lockstep (program : Program) (tape : Tape) (input : Input)
    (output : Output) :
    (Terminates .checked program (.start tape input output) ↔
      Terminates .unchecked program (.start tape input output)) ∧
    (∀ count, after .unchecked program count (.start tape input output) =
      after .checked program count (.start tape input output)) ∧
    (∀ fuel, executed .unchecked program fuel (.start tape input output) =
        executed .checked program fuel (.start tape input output) ∧
      Lockstep program tape.size 0 (executed .checked program fuel (.start tape input output))
        (run .checked program fuel (.start tape input output))
        (run .unchecked program fuel (.start tape input output)) ∧
      ((∃ count before, count < fuel ∧
          after .checked program count (.start tape input output) = some before ∧
          before.Strays program) ↔
        ∃ pointer index last, run .checked program fuel (.start tape input output) =
          some (.pointerOutOfBounds pointer index, last))) ∧
    (∀ policy state, state.Strays program →
      ∃ last, step policy program state = .ended (state.lost policy) last ∧
        last = { state with input := last.input }) ∧
    ∀ policy state op, program.ops[state.index]? = some op → op.opcode.touches = false →
      ∃ next, step policy program state = .running next := by
  have lockstep (fuel : Nat) := run_lockstep program fuel (.start tape input output)
  refine ⟨?_, fun count => after_unchecked count _, fun fuel => ?_, fun policy state strays => ?_,
    fun policy state op => running_of_not_touches policy⟩
  · rw [terminates_iff, terminates_iff]
    exact exists_congr fun fuel => by rw [(lockstep fuel).2.isSome_eq]
  · exact ⟨(lockstep fuel).1, (lockstep fuel).2, strays_iff_reported⟩
  · exact strays.step_eq policy

/-- Moves by -2^31 and back by 2 lead to the left of the tape.  There the output ends both runs, with
the exact sum of the moves as the pointer of the one and with its word as the index of the other. -/
theorem checked_unchecked_lockstep_left_of_tape :
    ∃ program last, Program.resolve [⟨.increment, 7⟩, ⟨.shiftRight, -0x80000000⟩, ⟨.shiftLeft, 2⟩,
        ⟨.output, 1⟩] = .ok program ∧
      run .checked program 4 (.start (.zeroed 2) (.ofBytes [65]) .unlimited) =
        some (.pointerOutOfBounds (-0x80000002) 3, last) ∧
      run .unchecked program 4 (.start (.zeroed 2) (.ofBytes [65]) .unlimited) =
        some (.crashed 2 0xffffffff7ffffffe, last) ∧
      last.tape = ⟨#[7, 0]⟩ ∧ last.input = .ofBytes [65] ∧ last.output = .unlimited := by
  have direct : ∃ program before, Program.resolve [⟨.increment, 7⟩, ⟨.shiftRight, -0x80000000⟩,
        ⟨.shiftLeft, 2⟩, ⟨.output, 1⟩] = .ok program ∧
      after .checked program 3 (.start (.zeroed 2) (.ofBytes [65]) .unlimited) = some before ∧
      run .checked program 4 (.start (.zeroed 2) (.ofBytes [65]) .unlimited) =
        some (.pointerOutOfBounds (-0x80000002) 3, before) ∧
      before.Strays program ∧
      before.tape = ⟨#[7, 0]⟩ ∧ before.input = .ofBytes [65] ∧ before.output = .unlimited :=
    ⟨_, _, rfl, rfl, rfl, ⟨_, rfl, rfl, by decide, nofun⟩, rfl, rfl, rfl⟩
  obtain ⟨program, before, resolved, reached, direct, strays, tape, input, output⟩ := direct
  obtain ⟨_, _, both, _⟩ := checked_unchecked_lockstep program (.zeroed 2) (.ofBytes [65]) .unlimited
  obtain ⟨_, lockstep, reports⟩ := both 4
  obtain ⟨pointer, index, last, reported⟩ := reports.mp ⟨3, before, by decide, reached, strays⟩
  cases direct.symm.trans reported
  obtain ⟨word, crashed, off⟩ := lockstep.crashes reported
  have same : word = 0xffffffff7ffffffe := by
    have named := off.same
    omega
  rw [same] at crashed
  exact ⟨program, before, resolved, reported, crashed, tape, input, output⟩

end Interpreter

end Tapewright
