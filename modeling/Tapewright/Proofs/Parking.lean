import Tapewright.Proofs.NativeRun
import Tapewright.Proofs.StructuredRun

namespace Tapewright

/-! Native runs against interpreted runs.

Up to the first fault the two go in step.  There the interpreted run ends, and the native run
goes on with the fault parked; it may change the tape and take any way through the program,
but nothing reaches the streams any more, and the parked fault is what it reports.
-/

variable {policy : BoundsPolicy} {program : Program}

def Interpreter.Ending.ofResult : Option Fault → Interpreter.Ending
  | none => .finished
  | some fault => .faulted fault

/-- The same moment of a native run in which nothing has failed so far. -/
def Interpreter.State.native (state : Interpreter.State) : Native.State :=
  ⟨state.index, state.pointer, state.tape, .ofStreams state.input state.output⟩

/-- Whether the op that comes next is a transfer that fails. -/
def Interpreter.transferFails (program : Program) (state : Interpreter.State) : Bool :=
  match program.ops[state.index]? with
  | none => false
  | some op =>
      match op.opcode with
      | .input =>
          match state.input.getCell with
          | (.error _, _) => true
          | (.ok _, _) => false
      | .output =>
          match state.tape.get? state.pointer with
          | none => false
          | some cell => (state.output.putCell cell).1.isSome
      | _ => false

def Interpreter.TransfersSucceed (policy : BoundsPolicy) (program : Program)
    (state : Interpreter.State) : Prop :=
  ∀ count next, Interpreter.after policy program count state = some next →
    Interpreter.transferFails program next = false

theorem Interpreter.TransfersSucceed.next {state next : Interpreter.State}
    (succeed : Interpreter.TransfersSucceed policy program state)
    (running : Interpreter.step policy program state = .running next) :
    Interpreter.TransfersSucceed policy program next := by
  intro count last reached
  refine succeed (count + 1) last ?_
  rw [Interpreter.after, running]
  exact reached

theorem Interpreter.step_of_transferFails {state : Interpreter.State}
    (fails : Interpreter.transferFails program state = true) (policy : BoundsPolicy) :
    ∃ fault last, Interpreter.step policy program state = .ended (.faulted fault) last := by
  cases found : program.ops[state.index]? with
  | none => simp [transferFails, found] at fails
  | some op =>
      obtain ⟨opcode, operand⟩ := op
      cases opcode with
      | input =>
          rcases read : state.input.getCell with ⟨outcome, input⟩
          cases outcome with
          | error fault => exact ⟨fault, { state with input }, by simp only [step, found, act, read]⟩
          | ok value => simp [transferFails, found, read] at fails
      | output =>
          cases cell : state.tape.get? state.pointer with
          | none => simp [transferFails, found, cell] at fails
          | some value =>
              rcases written : state.output.putCell value with ⟨outcome, output⟩
              cases outcome with
              | none => simp [transferFails, found, cell, written] at fails
              | some fault =>
                  exact ⟨fault, { state with output }, by simp only [step, found, act, cell, written]⟩
      | _ => simp [transferFails, found] at fails

/-- A transfer that fails would have ended the run before it could finish. -/
theorem Interpreter.transfersSucceed_of_finished {fuel : Nat} {state last : Interpreter.State}
    (ended : Interpreter.run policy program fuel state = some (.finished, last)) :
    Interpreter.TransfersSucceed policy program state := by
  intro count next reached
  induction count generalizing fuel state with
  | zero =>
      obtain rfl : state = next := Option.some.inj reached
      cases fails : transferFails program state with
      | false => rfl
      | true =>
          obtain ⟨fault, final, stepped⟩ := step_of_transferFails fails policy
          cases fuel with
          | zero => cases ended
          | succ fuel =>
              rw [run, stepped] at ended
              cases ended
  | succ count ih =>
      cases fuel with
      | zero => cases ended
      | succ fuel =>
          rw [after] at reached
          rw [run] at ended
          cases stepped : step policy program state with
          | running middle =>
              rw [stepped] at reached ended
              exact ih ended reached
          | ended ending final =>
              rw [stepped] at reached
              cases reached

theorem Interpreter.isOffTape_ofResult (result : Option Fault) :
    (Interpreter.Ending.ofResult result).isOffTape = false := by
  cases result <;> rfl

namespace Native

/-- How one step of an interpreted run and of a native run compare. -/
inductive Compares (program : Program) (state : Interpreter.State) :
    Interpreter.Step → Step → Prop where
  | running {next : Interpreter.State} : Compares program state (.running next) (.running next.native)
  | finished {result : Option Fault} {last : Interpreter.State} :
      Compares program state (.ended (.ofResult result) last) (.ended (.ofResult result) last.native)
  | parked {fault : Fault} {last : Interpreter.State} {next : State}
      (fails : Interpreter.transferFails program state = true)
      (host : next.host = ⟨last.input, last.output, some fault⟩) :
      Compares program state (.ended (.faulted fault) last) (.running next)
  | faultedOff {fault : Fault} {last : Interpreter.State} {pointer : UInt64} {place : Nat}
      {final : State} (fails : Interpreter.transferFails program state = true) :
      Compares program state (.ended (.faulted fault) last) (.ended (.escaped pointer place) final)
  | lost {ending : Interpreter.Ending} {last : Interpreter.State} {pointer : UInt64} {place : Nat}
      {final : State} (off : ending.isOffTape = true) :
      Compares program state (.ended ending last) (.ended (.escaped pointer place) final)

theorem step_compares (policy : BoundsPolicy) (program : Program) (state : Interpreter.State) :
    Compares program state (Interpreter.step policy program state)
      (step program state.native) := by
  cases found : program.ops[state.index]? with
  | none =>
      have here : program.ops[state.native.index]? = none := found
      simp only [Interpreter.step, step, found, here]
      rcases flushed : state.output.flush with ⟨result, output⟩
      have finished := @Compares.finished program state result { state with output }
      cases result <;>
        simpa [Interpreter.finish, Host.finish, Interpreter.State.native, Host.ofStreams, flushed,
          Interpreter.Ending.ofResult, Ending.ofResult] using finished
  | some op =>
      have here : program.ops[state.native.index]? = some op := found
      have touched : state.native.tape.get? state.native.pointer = state.tape.get? state.pointer := rfl
      obtain ⟨opcode, operand⟩ := op
      simp only [Interpreter.step, step, found, here, touched]
      cases opcode with
      | shiftRight | shiftLeft | loopEnd => exact .running
      | increment | decrement | assign =>
          cases cell : state.tape.get? state.pointer with
          | none =>
              simp only [Interpreter.act, cell]
              exact .lost (Interpreter.isOffTape_lost _ _)
          | some value =>
              simp only [Interpreter.act, cell]
              exact .running
      | loopStart =>
          cases cell : state.tape.get? state.pointer with
          | none => exact .lost (Interpreter.isOffTape_lost _ _)
          | some value =>
              simp only
              split <;> exact .running
      | output =>
          cases cell : state.tape.get? state.pointer with
          | none =>
              simp only [Interpreter.act, cell]
              exact .lost (Interpreter.isOffTape_lost _ _)
          | some value =>
              rcases written : state.output.putCell value with ⟨outcome, output⟩
              have put : state.native.host.putCell value = ⟨state.input, output, outcome⟩ := by
                simp [Host.putCell, Interpreter.State.native, Host.ofStreams, written]
              cases outcome with
              | none =>
                  simp only [Interpreter.act, cell, written, put]
                  exact .running
              | some fault =>
                  simp only [Interpreter.act, cell, written, put]
                  refine .parked ?_ rfl
                  simp only [Interpreter.transferFails, found, cell, written, Option.isSome_some]
      | input =>
          rcases read : state.input.getCell with ⟨outcome, input⟩
          cases outcome with
          | error fault =>
              have fails : Interpreter.transferFails program state = true := by
                simp only [Interpreter.transferFails, found, read]
              have got : state.native.host.getCell =
                  (endOfInputCell, ⟨input, state.output, some fault⟩) := by
                simp [Host.getCell, Interpreter.State.native, Host.ofStreams, read]
              cases cell : state.tape.get? state.pointer with
              | none =>
                  simp only [Interpreter.act, read]
                  exact .faultedOff fails
              | some value =>
                  simp only [Interpreter.act, read, got]
                  exact .parked fails rfl
          | ok value =>
              have got : state.native.host.getCell = (value, .ofStreams input state.output) := by
                simp [Host.getCell, Interpreter.State.native, Host.ofStreams, read]
              cases cell : state.tape.get? state.pointer with
              | none =>
                  simp only [Interpreter.act, read, cell]
                  exact .lost (Interpreter.isOffTape_lost _ _)
              | some _ =>
                  simp only [Interpreter.act, read, cell, got]
                  exact .running

/-- Once a fault is parked, a step leaves the host alone, and what ends the run reports it. -/
theorem step_of_parked {state : State} {fault : Fault} (parked : state.host.parked = some fault) :
    (∃ next, step program state = .running next ∧ next.host = state.host) ∨
    (∃ last, step program state = .ended (.faulted fault) last ∧ last.host = state.host) ∨
    (∃ pointer index last, step program state = .ended (.escaped pointer index) last) := by
  have put (cell : Int32) : state.host.putCell cell = state.host := by
    simp only [Host.putCell, parked]
  have got : state.host.getCell = (endOfInputCell, state.host) := by
    simp only [Host.getCell, parked]
  have finished : state.host.finish = (some fault, state.host) := by
    simp only [Host.finish, parked]
  cases found : program.ops[state.index]? with
  | none => exact .inr (.inl ⟨state, by simp only [step, found, finished], rfl⟩)
  | some op =>
      obtain ⟨opcode, operand⟩ := op
      cases cell : state.tape.get? state.pointer with
      | none =>
          cases opcode <;> simp [step, found, cell]
      | some value =>
          cases opcode <;> simp only [step, found, cell, put, got] <;> try simp
          by_cases zero : value = 0 <;> simp [zero]

theorem run_of_parked {fuel : Nat} {state last : State} {fault : Fault} {result : Option Fault}
    (parked : state.host.parked = some fault)
    (ended : run program fuel state = some (.ofResult result, last)) :
    result = some fault ∧ last.host = state.host := by
  induction fuel generalizing state with
  | zero => cases ended
  | succ fuel ih =>
      rw [run] at ended
      rcases step_of_parked parked with ⟨next, stepped, host⟩ | ⟨final, stepped, host⟩ |
        ⟨pointer, index, final, stepped⟩
      · rw [stepped] at ended
        have later := ih (host ▸ parked) ended
        rwa [host] at later
      · rw [stepped] at ended
        cases result <;> simp [Ending.ofResult] at ended
        obtain ⟨rfl, rfl⟩ := ended
        exact ⟨rfl, host⟩
      · rw [stepped] at ended
        cases result <;> simp [Ending.ofResult] at ended

theorem interpreted_of_run {fuel : Nat} {state : Interpreter.State} {result : Option Fault}
    {last : State} (ended : run program fuel state.native = some (.ofResult result, last)) :
    ∃ other final, Interpreter.run policy program other state = some (.ofResult result, final) ∧
      final.output = last.host.output ∧ final.input = last.host.input ∧
      (last.host.parked = none → final.tape = last.tape) := by
  induction fuel generalizing state with
  | zero => cases ended
  | succ fuel ih =>
      rw [run] at ended
      have compares := step_compares policy program state
      generalize interpreted : Interpreter.step policy program state = first at compares
      generalize stepped : step program state.native = second at compares ended
      cases compares with
      | running =>
          obtain ⟨other, final, finalEnded, same⟩ := ih ended
          exact ⟨other + 1, final, by rw [Interpreter.run, interpreted]; exact finalEnded, same⟩
      | @finished outcome final =>
          have same : outcome = result ∧ final.native = last := by
            cases outcome <;> cases result <;> simp [Ending.ofResult] at ended <;> simp [ended]
          obtain ⟨rfl, rfl⟩ := same
          exact ⟨1, final, by rw [Interpreter.run, interpreted], rfl, rfl, fun _ => rfl⟩
      | @parked fault final next _ host =>
          obtain ⟨rfl, lastHost⟩ := run_of_parked (by rw [host]) ended
          refine ⟨1, final, by rw [Interpreter.run, interpreted]; rfl, ?_⟩
          rw [lastHost, host]
          exact ⟨rfl, rfl, fun none => by cases none⟩
      | faultedOff _ => cases result <;> simp [Ending.ofResult] at ended
      | lost _ => cases result <;> simp [Ending.ofResult] at ended

theorem run_of_interpreted {fuel : Nat} {state final : Interpreter.State} {result : Option Fault}
    (ended : Interpreter.run policy program fuel state = some (.ofResult result, final))
    (succeed : Interpreter.TransfersSucceed policy program state) :
    ∃ other, run program other state.native = some (.ofResult result, final.native) := by
  induction fuel generalizing state with
  | zero => cases ended
  | succ fuel ih =>
      rw [Interpreter.run] at ended
      have here := succeed 0 state rfl
      have compares := step_compares policy program state
      generalize interpreted : Interpreter.step policy program state = first at compares ended
      generalize stepped : step program state.native = second at compares
      cases compares with
      | running =>
          obtain ⟨other, finalEnded⟩ := ih ended (succeed.next interpreted)
          exact ⟨other + 1, by rw [run, stepped]; exact finalEnded⟩
      | @finished outcome last =>
          have same : outcome = result ∧ last = final := by
            cases outcome <;> cases result <;> simp [Interpreter.Ending.ofResult] at ended <;>
              simp [ended]
          obtain ⟨rfl, rfl⟩ := same
          exact ⟨1, by rw [run, stepped]⟩
      | parked fails _ =>
          rw [fails] at here
          cases here
      | faultedOff fails =>
          rw [fails] at here
          cases here
      | lost off =>
          obtain ⟨rfl, _⟩ := Prod.mk.inj (Option.some.inj ended)
          rw [Interpreter.isOffTape_ofResult] at off
          cases off

/-- Where an interpreted run finishes, a native run finishes in the same state. -/
theorem run_of_finished {fuel : Nat} {state final : Interpreter.State}
    (ended : Interpreter.run policy program fuel state = some (.finished, final)) :
    ∃ other, run program other state.native = some (.finished, final.native) :=
  @run_of_interpreted policy program fuel state final none ended
    (Interpreter.transfersSucceed_of_finished ended)

/-- Native and interpreted runs agree on what can be observed.  A native run that stays on the
tape reports what an interpreted run reports, and the streams are the same; so is the tape
when no fault was parked.  The converse holds for an interpreted run none of whose transfers
fails. -/
theorem agrees_with_interpreter (policy : BoundsPolicy) (program : Program) (tape : Tape)
    (input : Input) (output : Output) :
    (∀ fuel result last,
      run program fuel (.start tape (.ofStreams input output)) = some (.ofResult result, last) →
      ∃ other final,
        Interpreter.run policy program other (.start tape input output) =
          some (.ofResult result, final) ∧
        final.output = last.host.output ∧ final.input = last.host.input ∧
        (last.host.parked = none → final.tape = last.tape)) ∧
    (∀ fuel result final,
      Interpreter.run policy program fuel (.start tape input output) =
        some (.ofResult result, final) →
      Interpreter.TransfersSucceed policy program (.start tape input output) →
      ∃ other last,
        run program other (.start tape (.ofStreams input output)) = some (.ofResult result, last) ∧
        last.tape = final.tape ∧ last.host = .ofStreams final.input final.output) := by
  constructor
  · intro fuel result last ended
    exact @interpreted_of_run policy program fuel (.start tape input output) result last ended
  · intro fuel result final ended succeed
    obtain ⟨other, nativeEnded⟩ := run_of_interpreted ended succeed
    exact ⟨other, final.native, nativeEnded, rfl, rfl⟩

/-- On `.,+` with a first write that fails, the interpreted run ends before the read, and so
reads nothing; with writes that succeed, the native run goes through. -/
theorem agrees_with_interpreter_refused :
    (∃ other final,
      Interpreter.run .checked ⟨#[⟨.output, 0⟩, ⟨.input, 0⟩, ⟨.increment, 1⟩]⟩ other
          (.start (.zeroed 1) (.ofBytes [7]) ⟨#[], [⟨0, .acceptsNothing⟩], none, 0⟩) =
        some (.faulted .nothingAccepted, final) ∧
      final.output = ⟨#[], [], none, 0⟩ ∧ final.input = .ofBytes [7]) ∧
    (∃ other last,
      run ⟨#[⟨.output, 0⟩, ⟨.input, 0⟩, ⟨.increment, 1⟩]⟩ other
          (.start (.zeroed 1) (.ofStreams (.ofBytes [7]) .unlimited)) = some (.finished, last) ∧
      last.tape = ⟨#[8]⟩ ∧ last.host = .ofStreams ⟨[], 1⟩ ⟨#[0], [], none, 1⟩) := by
  have refused : run ⟨#[⟨.output, 0⟩, ⟨.input, 0⟩, ⟨.increment, 1⟩]⟩ 4
      (.start (.zeroed 1) (.ofStreams (.ofBytes [7]) ⟨#[], [⟨0, .acceptsNothing⟩], none, 0⟩)) =
      some (.ofResult (some .nothingAccepted),
        ⟨3, 0, ⟨#[0]⟩, ⟨.ofBytes [7], ⟨#[], [], none, 0⟩, some .nothingAccepted⟩⟩) := by decide
  have accepted : Interpreter.run .checked ⟨#[⟨.output, 0⟩, ⟨.input, 0⟩, ⟨.increment, 1⟩]⟩ 4
      (.start (.zeroed 1) (.ofBytes [7]) .unlimited) =
      some (.ofResult none, ⟨3, 0, ⟨#[8]⟩, ⟨[], 1⟩, ⟨#[0], [], none, 1⟩⟩) := by decide
  obtain ⟨other, final, ended, sameOutput, sameInput, _⟩ :=
    (agrees_with_interpreter .checked _ _ _ _).1 _ _ _ refused
  have succeed : Interpreter.TransfersSucceed .checked
      ⟨#[⟨.output, 0⟩, ⟨.input, 0⟩, ⟨.increment, 1⟩]⟩ (.start (.zeroed 1) (.ofBytes [7]) .unlimited) := by
    intro count next reached
    match count, reached with
    | 0, reached | 1, reached | 2, reached | 3, reached =>
        cases reached
        decide
    | _ + 4, reached => cases reached
  obtain ⟨more, last, nativeEnded, sameTape, sameHost⟩ :=
    (agrees_with_interpreter .checked _ _ _ _).2 _ _ _ accepted succeed
  exact ⟨⟨other, final, ended, sameOutput, sameInput⟩, more, last, nativeEnded, sameTape, sameHost⟩

end Native

end Tapewright
