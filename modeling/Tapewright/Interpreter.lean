import Tapewright.Program
import Tapewright.Tape

namespace Tapewright

/-! Running a program op by op.

The data pointer is a 64-bit word that may wander off the tape; only an op that
touches a cell needs it back.  A loop start touches its cell, a loop end only
jumps back to the loop start.  The first fault of a stream ends the run.
-/

/-- Whether a run reports a pointer that left the tape, or crashes on it. -/
inductive BoundsPolicy where
  | unchecked
  | checked
deriving DecidableEq, Repr

namespace Interpreter

inductive Ending where
  | finished
  | faulted (fault : Fault)
  /-- The report of a checked run: the pointer as a signed number, and the op. -/
  | pointerOutOfBounds (pointer : Int) (index : Nat)
  /-- The crash of an unchecked run: the tape size, and the pointer as an index. -/
  | crashed (size index : Nat)
deriving DecidableEq, Repr

def Ending.message? : Ending → Option String
  | .finished => none
  | .faulted fault => some ("I/O error while running program: " ++ fault.text)
  | .pointerOutOfBounds pointer index =>
      some ("data pointer " ++ toString pointer ++ " left the tape at op " ++ toString index)
  | .crashed size index =>
      some ("index out of bounds: the len is " ++ toString size ++
        " but the index is " ++ toString index)

structure State where
  index : Nat
  pointer : UInt64
  tape : Tape
  input : Input
  output : Output
deriving DecidableEq, Repr

namespace State

def start (tape : Tape) (input : Input) (output : Output) : State :=
  ⟨0, 0, tape, input, output⟩

/-- How a run ends that touches a cell off the tape. -/
def lost (state : State) : BoundsPolicy → Ending
  | .checked => .pointerOutOfBounds state.pointer.toInt64.toInt state.index
  | .unchecked => .crashed state.tape.size state.pointer.toNat

end State

inductive Step where
  | running (state : State)
  | ended (ending : Ending) (state : State)

/-- The effect of an op that is not a bracket.  A failing op leaves the tape and the
output alone; a read takes its byte before the cell is looked up. -/
@[inline] def act (policy : BoundsPolicy) (op : Op) (state : State) : Step :=
  match op.opcode with
  | .shiftRight =>
      .running { state with
        pointer := state.pointer + op.reach
        index := state.index + 1 }
  | .shiftLeft =>
      .running { state with
        pointer := state.pointer - op.reach
        index := state.index + 1 }
  | .increment =>
      match state.tape.get? state.pointer with
      | none => .ended (state.lost policy) state
      | some cell =>
          .running { state with
            tape := state.tape.set state.pointer (cell + op.operand)
            index := state.index + 1 }
  | .decrement =>
      match state.tape.get? state.pointer with
      | none => .ended (state.lost policy) state
      | some cell =>
          .running { state with
            tape := state.tape.set state.pointer (cell - op.operand)
            index := state.index + 1 }
  | .assign =>
      match state.tape.get? state.pointer with
      | none => .ended (state.lost policy) state
      | some _ =>
          .running { state with
            tape := state.tape.set state.pointer op.operand
            index := state.index + 1 }
  | .output =>
      match state.tape.get? state.pointer with
      | none => .ended (state.lost policy) state
      | some cell =>
          match state.output.putCell cell with
          | (none, output) => .running { state with output, index := state.index + 1 }
          | (some fault, output) => .ended (.faulted fault) { state with output }
  | .input =>
      match state.input.getCell with
      | (.error fault, input) => .ended (.faulted fault) { state with input }
      | (.ok value, input) =>
          match state.tape.get? state.pointer with
          | none => .ended (state.lost policy) { state with input }
          | some _ =>
              .running { state with
                input
                tape := state.tape.set state.pointer value
                index := state.index + 1 }
  | .loopStart | .loopEnd => .running { state with index := state.index + 1 }

/-- The end of a run that is out of ops: one flush. -/
@[inline] def finish (state : State) : Ending × State :=
  match state.output.flush with
  | (none, output) => (.finished, { state with output })
  | (some fault, output) => (.faulted fault, { state with output })

@[inline] def step (policy : BoundsPolicy) (program : Program) (state : State) : Step :=
  match program.ops[state.index]? with
  | none =>
      match finish state with
      | (ending, last) => .ended ending last
  | some op =>
      match op.opcode with
      | .loopStart =>
          match state.tape.get? state.pointer with
          | none => .ended (state.lost policy) state
          | some cell =>
              if cell = 0 then
                .running { state with index := op.target + 1 }
              else
                .running { state with index := state.index + 1 }
      | .loopEnd => .running { state with index := op.target }
      | _ => act policy op state

/-- Run for at most `fuel` steps; `none` when that is not enough. -/
def run (policy : BoundsPolicy) (program : Program) : Nat → State → Option (Ending × State)
  | 0, _ => none
  | fuel + 1, state =>
      match step policy program state with
      | .running next => run policy program fuel next
      | .ended ending last => some (ending, last)

end Interpreter

end Tapewright
