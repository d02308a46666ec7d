import Tapewright.Interpreter

namespace Tapewright

/-! Runs of native code, op by op.

Native code cannot stop in the middle of a host call, so the host parks the first
fault and lets the code run on: from then on nothing is written, and every read
brings the end of the input.  The parked fault is reported when the code returns.
-/

/-- The streams native code talks to, and the first fault they had. -/
structure Host where
  input : Input
  output : Output
  parked : Option Fault
deriving DecidableEq, Repr

namespace Host

def ofStreams (input : Input) (output : Output) : Host :=
  ⟨input, output, none⟩

def putCell (host : Host) (cell : Int32) : Host :=
  match host.parked with
  | some _ => host
  | none =>
      match host.output.putCell cell with
      | (fault, output) => { host with output, parked := fault }

def getCell (host : Host) : Int32 × Host :=
  match host.parked with
  | some _ => (endOfInputCell, host)
  | none =>
      match host.input.getCell with
      | (.ok value, input) => (value, { host with input })
      | (.error fault, input) => (endOfInputCell, { host with input, parked := some fault })

/-- What is reported once the code has returned: the parked fault, or else the
outcome of one flush. -/
def finish (host : Host) : Option Fault × Host :=
  match host.parked with
  | some fault => (some fault, host)
  | none =>
      match host.output.flush with
      | (fault, output) => (fault, { host with output })

end Host

namespace Native

inductive Ending where
  | finished
  | faulted (fault : Fault)
  /-- The code touched memory off the tape; nothing is known from there on. -/
  | escaped (pointer : UInt64) (index : Nat)
deriving DecidableEq, Repr

def Ending.message? : Ending → Option String
  | .finished => none
  | .faulted fault => some ("I/O error inside jitted code: " ++ fault.text)
  | .escaped .. => none

structure State where
  index : Nat
  pointer : UInt64
  tape : Tape
  host : Host
deriving DecidableEq, Repr

def State.start (tape : Tape) (host : Host) : State :=
  ⟨0, 0, tape, host⟩

inductive Step where
  | running (state : State)
  | ended (ending : Ending) (state : State)

@[inline] def step (program : Program) (state : State) : Step :=
  match program.ops[state.index]? with
  | none =>
      match state.host.finish with
      | (none, host) => .ended .finished { state with host }
      | (some fault, host) => .ended (.faulted fault) { state with host }
  | some op =>
      match op.opcode with
      | .shiftRight =>
          .running { state with
            pointer := state.pointer + op.reach
            index := state.index + 1 }
      | .shiftLeft =>
          .running { state with
            pointer := state.pointer - op.reach
            index := state.index + 1 }
      | .loopEnd => .running { state with index := op.target }
      | _ =>
          match state.tape.get? state.pointer with
          | none => .ended (.escaped state.pointer state.index) state
          | some cell =>
              match op.opcode with
              | .increment =>
                  .running { state with
                    tape := state.tape.set state.pointer (cell + op.operand)
                    index := state.index + 1 }
              | .decrement =>
                  .running { state with
                    tape := state.tape.set state.pointer (cell - op.operand)
                    index := state.index + 1 }
              | .assign =>
                  .running { state with
                    tape := state.tape.set state.pointer op.operand
                    index := state.index + 1 }
              | .output =>
                  .running { state with
                    host := state.host.putCell cell
                    index := state.index + 1 }
              | .input =>
                  match state.host.getCell with
                  | (value, host) =>
                      .running { state with
                        host
                        tape := state.tape.set state.pointer value
                        index := state.index + 1 }
              | _ =>
                  if cell = 0 then
                    .running { state with index := op.target + 1 }
                  else
                    .running { state with index := state.index + 1 }

/-- Run for at most `fuel` steps; `none` when that is not enough. -/
def run (program : Program) : Nat → State → Option (Ending × State)
  | 0, _ => none
  | fuel + 1, state =>
      match step program state with
      | .running next => run program fuel next
      | .ended ending last => some (ending, last)

end Native

end Tapewright
