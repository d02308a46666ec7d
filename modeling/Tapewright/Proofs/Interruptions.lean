import Tapewright.Proofs.BoundsChecks
import Tapewright.Proofs.Insertions
import Tapewright.Proofs.NativeRun

namespace Tapewright

/-! Interrupted reads and writes.

A transfer that is interrupted is made again, so streams that are the same apart from interruptions
bring the same bytes and the same faults, call by call.  Runs that differ in nothing else therefore
go through the same steps.
-/

def ReadOutcome.isInterruption : ReadOutcome → Bool
  | .fails fault => fault.isInterruption
  | .byte _ | .endOfStream => false

def Refusal.isInterruption (refusal : Refusal) : Bool :=
  match refusal.cause with
  | .fails fault => fault.isInterruption
  | .acceptsNothing => false

/-- No refusal is due later than one behind it. -/
def Refusal.Ordered (refusals : List Refusal) : Prop :=
  refusals.Pairwise fun earlier later => earlier.position ≤ later.position

namespace Input

/-- What is left of the outcomes without the interruptions. -/
def settled (outcomes : List ReadOutcome) : List ReadOutcome :=
  outcomes.filter (!·.isInterruption)

/-- The same input, apart from interruptions that are still to come. -/
structure Alike (input other : Input) : Prop where
  taken : other.taken = input.taken
  outcomes : settled other.outcomes = settled input.outcomes

theorem nextByte_settled (outcomes : List ReadOutcome) :
    nextByte (settled outcomes) = Prod.map id settled (nextByte outcomes) := by
  induction outcomes with
  | nil => rfl
  | cons outcome rest ih =>
      cases outcome with
      | byte value => rfl
      | endOfStream => rfl
      | fails fault =>
          cases interrupted : fault.isInterruption with
          | true =>
              have dropped : settled (.fails fault :: rest) = settled rest :=
                List.filter_cons_of_neg (by simp [ReadOutcome.isInterruption, interrupted])
              rw [dropped, ih, nextByte, if_pos interrupted]
          | false =>
              have kept : settled (.fails fault :: rest) = .fails fault :: settled rest :=
                List.filter_cons_of_pos (by simp [ReadOutcome.isInterruption, interrupted])
              simp [kept, nextByte, interrupted]

theorem Alike.nextByte {input other : Input} (alike : input.Alike other) :
    (nextByte other.outcomes).1 = (nextByte input.outcomes).1 ∧
      settled (nextByte other.outcomes).2 = settled (nextByte input.outcomes).2 := by
  have same := nextByte_settled other.outcomes
  rw [alike.outcomes, nextByte_settled] at same
  obtain ⟨result, rest⟩ := Prod.mk.inj same
  exact ⟨result.symm, rest.symm⟩

/-- A read brings both inputs on in the same way. -/
theorem Alike.getCell {input other : Input} (alike : input.Alike other) :
    ∃ result next after, input.getCell = (result, next) ∧ other.getCell = (result, after) ∧
      next.Alike after := by
  obtain ⟨result, rest⟩ := alike.nextByte
  simp only [Input.getCell]
  rcases read : Input.nextByte input.outcomes with ⟨outcome, left⟩
  rcases reads : Input.nextByte other.outcomes with ⟨same, others⟩
  rw [read, reads] at result rest
  obtain rfl : same = outcome := result
  rcases same with fault | _ | byte
  · exact ⟨_, _, _, rfl, rfl, alike.taken, rest⟩
  · exact ⟨_, _, _, rfl, rfl, alike.taken, rest⟩
  · exact ⟨_, _, _, rfl, rfl, congrArg (· + 1) alike.taken, rest⟩

end Input

namespace Output

def settled (refusals : List Refusal) : List Refusal :=
  refusals.filter (!·.isInterruption)

/-- The same output, apart from interruptions that are still due. -/
structure Alike (output other : Output) : Prop where
  accepted : other.accepted = output.accepted
  refusals : settled other.refusals = settled output.refusals
  ordered : Refusal.Ordered output.refusals
  otherOrdered : Refusal.Ordered other.refusals
  flushFault : other.flushFault = output.flushFault
  flushes : other.flushes = output.flushes

theorem fault?_eq_none {refusal : Refusal} (interrupted : refusal.isInterruption = true) :
    refusal.cause.fault? = none := by
  obtain ⟨position, fault | _⟩ := refusal
  · exact if_pos interrupted
  · cases interrupted

theorem exists_fault? {refusal : Refusal} (real : refusal.isInterruption = false) :
    ∃ fault, refusal.cause.fault? = some fault := by
  obtain ⟨position, fault | _⟩ := refusal
  · exact ⟨fault, if_neg (by simpa [Refusal.isInterruption] using real)⟩
  · exact ⟨_, rfl⟩

theorem dueFault_early {accepted : Nat} {refusals : List Refusal}
    (early : ∀ refusal ∈ refusals, accepted < refusal.position) :
    dueFault accepted refusals = (none, refusals) := by
  cases refusals with
  | nil => rfl
  | cons refusal rest => rw [dueFault, if_neg (Nat.not_le.mpr (early refusal (by simp)))]

theorem dueFault_suffix (accepted : Nat) (refusals : List Refusal) :
    (dueFault accepted refusals).2 <:+ refusals := by
  induction refusals with
  | nil => exact List.suffix_refl _
  | cons refusal rest ih =>
      rw [dueFault]
      split
      · split
        · exact ih.trans (List.suffix_cons _ _)
        · exact List.suffix_cons _ _
      · exact List.suffix_refl _

/-- Where refusals are in order, an interruption that is not due yet stands before none that is. -/
theorem dueFault_settled {refusals : List Refusal} (ordered : Refusal.Ordered refusals)
    (accepted : Nat) :
    dueFault accepted (settled refusals) = Prod.map id settled (dueFault accepted refusals) := by
  induction refusals with
  | nil => rfl
  | cons refusal rest ih =>
      obtain ⟨first, others⟩ := List.pairwise_cons.mp ordered
      by_cases due : refusal.position ≤ accepted
      · cases interrupted : refusal.isInterruption with
        | true =>
            have dropped : settled (refusal :: rest) = settled rest :=
              List.filter_cons_of_neg (by simp [interrupted])
            rw [dropped, ih others, dueFault, if_pos due, fault?_eq_none interrupted]
        | false =>
            have kept : settled (refusal :: rest) = refusal :: settled rest :=
              List.filter_cons_of_pos (by simp [interrupted])
            obtain ⟨fault, real⟩ := exists_fault? interrupted
            simp only [kept, dueFault, if_pos due, real]
            rfl
      · have early : ∀ other ∈ refusal :: rest, accepted < other.position := by
          intro other member
          rcases List.mem_cons.mp member with rfl | later
          · exact Nat.not_le.mp due
          · exact Nat.lt_of_lt_of_le (Nat.not_le.mp due) (first other later)
        have settledEarly : ∀ other ∈ settled (refusal :: rest), accepted < other.position :=
          fun other member => early other (List.mem_filter.mp member).1
        rw [dueFault_early early, dueFault_early settledEarly]
        rfl

theorem Alike.dueFault {output other : Output} (alike : output.Alike other) :
    (dueFault other.accepted.size other.refusals).1 =
        (dueFault output.accepted.size output.refusals).1 ∧
      settled (dueFault other.accepted.size other.refusals).2 =
        settled (dueFault output.accepted.size output.refusals).2 := by
  have same := dueFault_settled alike.otherOrdered output.accepted.size
  rw [alike.refusals, dueFault_settled alike.ordered, ← alike.accepted] at same
  obtain ⟨fault, rest⟩ := Prod.mk.inj same
  rw [alike.accepted] at fault rest ⊢
  exact ⟨fault.symm, rest.symm⟩

theorem Alike.putCell {output other : Output} (alike : output.Alike other) (cell : Int32) :
    ∃ result next after, output.putCell cell = (result, next) ∧
      other.putCell cell = (result, after) ∧ next.Alike after := by
  obtain ⟨result, rest⟩ := alike.dueFault
  have left := alike.ordered.sublist (dueFault_suffix output.accepted.size output.refusals).sublist
  have otherLeft :=
    alike.otherOrdered.sublist (dueFault_suffix other.accepted.size other.refusals).sublist
  simp only [Output.putCell, Output.put]
  rcases due : Output.dueFault output.accepted.size output.refusals with ⟨fault, later⟩
  rcases dues : Output.dueFault other.accepted.size other.refusals with ⟨same, others⟩
  rw [due, dues] at result rest
  rw [due] at left
  rw [dues] at otherLeft
  obtain rfl : same = fault := result
  cases same with
  | none =>
      exact ⟨_, _, _, rfl, rfl, by rw [alike.accepted], rest, left, otherLeft, alike.flushFault,
        alike.flushes⟩
  | some fault =>
      exact ⟨_, _, _, rfl, rfl, alike.accepted, rest, left, otherLeft, alike.flushFault,
        alike.flushes⟩

theorem Alike.flush {output other : Output} (alike : output.Alike other) :
    ∃ result next after, output.flush = (result, next) ∧ other.flush = (result, after) ∧
      next.Alike after := by
  refine ⟨output.flushFault, output.flush.2, other.flush.2, rfl, ?_, ?_⟩
  · rw [← alike.flushFault]
    rfl
  · exact ⟨alike.accepted, alike.refusals, alike.ordered, alike.otherOrdered, rfl,
      congrArg (· + 1) alike.flushes⟩

end Output

/-- What can be seen of a run that has ended. -/
structure Observation (Ending : Type) where
  ending : Ending
  tape : Tape
  accepted : Array UInt8
  taken : Nat
  flushes : Nat
deriving DecidableEq, Repr

namespace Interpreter

variable {policy : BoundsPolicy} {program : Program} {state other : State}

def observe (result : Ending × State) : Observation Ending :=
  ⟨result.1, result.2.tape, result.2.output.accepted, result.2.input.taken, result.2.output.flushes⟩

/-- The same moment of two runs, apart from interruptions that are still to come. -/
structure State.Alike (state other : State) : Prop where
  index : other.index = state.index
  pointer : other.pointer = state.pointer
  tape : other.tape = state.tape
  input : state.input.Alike other.input
  output : state.output.Alike other.output

inductive Step.Alike : Step → Step → Prop where
  | running {next after : State} (alike : next.Alike after) : Alike (.running next) (.running after)
  | ended {ending : Ending} {last final : State} (alike : last.Alike final) :
      Alike (.ended ending last) (.ended ending final)

theorem State.Alike.observe {ending : Ending} (alike : state.Alike other) :
    Interpreter.observe (ending, other) = Interpreter.observe (ending, state) := by
  simp only [Interpreter.observe, alike.tape, alike.output.accepted, alike.input.taken,
    alike.output.flushes]

theorem State.alike_of_streams {input otherInput : Input} {output otherOutput : Output}
    (inputs : input.Alike otherInput) (outputs : output.Alike otherOutput) (index : Nat)
    (pointer : UInt64) (tape : Tape) :
    State.Alike ⟨index, pointer, tape, input, output⟩
      ⟨index, pointer, tape, otherInput, otherOutput⟩ :=
  ⟨rfl, rfl, rfl, inputs, outputs⟩

theorem step_alike (alike : state.Alike other) :
    (step policy program state).Alike (step policy program other) := by
  obtain ⟨_, _, _, input, output⟩ := state
  obtain ⟨index, pointer, tape, otherInput, otherOutput⟩ := other
  obtain ⟨rfl, rfl, rfl, inputs, outputs⟩ := alike
  have same := State.alike_of_streams inputs outputs
  simp only [step]
  cases program.ops[index]? with
  | none =>
      obtain ⟨result, next, after, flushed, alsoFlushed, flushedAlike⟩ := outputs.flush
      simp only [finish, flushed, alsoFlushed]
      cases result <;> exact .ended (State.alike_of_streams inputs flushedAlike index pointer tape)
  | some op =>
      obtain ⟨opcode, operand⟩ := op
      cases opcode with
      | shiftRight | shiftLeft | loopEnd => exact .running (same _ _ _)
      | increment | decrement | assign =>
          simp only [act]
          cases tape.get? pointer with
          | none => exact .ended (same _ _ _)
          | some cell => exact .running (same _ _ _)
      | loopStart =>
          cases tape.get? pointer with
          | none => exact .ended (same _ _ _)
          | some cell =>
              simp only
              split <;> exact .running (same _ _ _)
      | output =>
          simp only [act]
          cases tape.get? pointer with
          | none => exact .ended (same _ _ _)
          | some cell =>
              obtain ⟨result, next, after, put, alsoPut, putAlike⟩ := outputs.putCell cell
              have written := State.alike_of_streams inputs putAlike
              simp only [put, alsoPut]
              cases result with
              | none => exact .running (written _ _ _)
              | some fault => exact .ended (written _ _ _)
      | input =>
          obtain ⟨result, next, after, got, alsoGot, gotAlike⟩ := inputs.getCell
          have taken := State.alike_of_streams gotAlike outputs
          simp only [act, got, alsoGot]
          cases result with
          | error fault => exact .ended (taken _ _ _)
          | ok value =>
              simp only
              cases tape.get? pointer with
              | none => exact .ended (taken _ _ _)
              | some cell => exact .running (taken _ _ _)

theorem run_alike (alike : state.Alike other) (fuel : Nat) :
    (run policy program fuel other).map observe = (run policy program fuel state).map observe := by
  induction fuel generalizing state other with
  | zero => rfl
  | succ fuel ih =>
      have steps := @step_alike policy program _ _ alike
      simp only [run]
      generalize step policy program state = first at steps
      generalize step policy program other = second at steps
      cases steps with
      | running next => exact ih next
      | ended last => exact congrArg some last.observe

end Interpreter

namespace Host

variable {host other : Host}

/-- Hosts whose streams are the same apart from interruptions, and that have parked the same fault. -/
structure Alike (host other : Host) : Prop where
  input : host.input.Alike other.input
  output : host.output.Alike other.output
  parked : other.parked = host.parked

theorem Alike.putCell (alike : host.Alike other) (cell : Int32) :
    (host.putCell cell).Alike (other.putCell cell) := by
  cases parked : host.parked with
  | some fault =>
      have alsoParked : other.parked = some fault := alike.parked.trans parked
      simp only [Host.putCell, parked, alsoParked]
      exact alike
  | none =>
      have alsoFree : other.parked = none := alike.parked.trans parked
      obtain ⟨result, next, after, put, alsoPut, putAlike⟩ := alike.output.putCell cell
      simp only [Host.putCell, parked, alsoFree, put, alsoPut]
      exact ⟨alike.input, putAlike, rfl⟩

theorem Alike.getCell (alike : host.Alike other) :
    ∃ value next after, host.getCell = (value, next) ∧ other.getCell = (value, after) ∧
      next.Alike after := by
  cases parked : host.parked with
  | some fault =>
      have alsoParked : other.parked = some fault := alike.parked.trans parked
      exact ⟨endOfInputCell, host, other, by simp only [Host.getCell, parked],
        by simp only [Host.getCell, alsoParked], alike⟩
  | none =>
      have alsoFree : other.parked = none := alike.parked.trans parked
      obtain ⟨result, next, after, got, alsoGot, gotAlike⟩ := alike.input.getCell
      simp only [Host.getCell, parked, alsoFree, got, alsoGot]
      cases result with
      | error fault => exact ⟨_, _, _, rfl, rfl, gotAlike, alike.output, rfl⟩
      | ok value => exact ⟨_, _, _, rfl, rfl, gotAlike, alike.output, rfl⟩

theorem Alike.finish (alike : host.Alike other) :
    ∃ result next after, host.finish = (result, next) ∧ other.finish = (result, after) ∧
      next.Alike after := by
  cases parked : host.parked with
  | some fault =>
      have alsoParked : other.parked = some fault := alike.parked.trans parked
      exact ⟨some fault, host, other, by simp only [Host.finish, parked],
        by simp only [Host.finish, alsoParked], alike⟩
  | none =>
      have alsoFree : other.parked = none := alike.parked.trans parked
      obtain ⟨result, next, after, flushed, alsoFlushed, flushedAlike⟩ := alike.output.flush
      simp only [Host.finish, parked, alsoFree, flushed, alsoFlushed]
      exact ⟨_, _, _, rfl, rfl, alike.input, flushedAlike, rfl⟩

end Host

namespace Native

variable {program : Program} {state other : State}

def observe (result : Ending × State) : Observation Ending :=
  ⟨result.1, result.2.tape, result.2.host.output.accepted, result.2.host.input.taken,
    result.2.host.output.flushes⟩

structure State.Alike (state other : State) : Prop where
  index : other.index = state.index
  pointer : other.pointer = state.pointer
  tape : other.tape = state.tape
  host : state.host.Alike other.host

inductive Step.Alike : Step → Step → Prop where
  | running {next after : State} (alike : next.Alike after) : Alike (.running next) (.running after)
  | ended {ending : Ending} {last final : State} (alike : last.Alike final) :
      Alike (.ended ending last) (.ended ending final)

theorem State.Alike.observe {ending : Ending} (alike : state.Alike other) :
    Native.observe (ending, other) = Native.observe (ending, state) := by
  simp only [Native.observe, alike.tape, alike.host.output.accepted, alike.host.input.taken,
    alike.host.output.flushes]

theorem State.alike_of_host {host otherHost : Host} (alike : host.Alike otherHost) (index : Nat)
    (pointer : UInt64) (tape : Tape) :
    State.Alike ⟨index, pointer, tape, host⟩ ⟨index, pointer, tape, otherHost⟩ :=
  ⟨rfl, rfl, rfl, alike⟩

theorem step_alike (alike : state.Alike other) :
    (step program state).Alike (step program other) := by
  obtain ⟨_, _, _, host⟩ := state
  obtain ⟨index, pointer, tape, otherHost⟩ := other
  obtain ⟨rfl, rfl, rfl, hosts⟩ := alike
  have same := State.alike_of_host hosts
  simp only [step]
  cases program.ops[index]? with
  | none =>
      obtain ⟨result, next, after, finished, alsoFinished, finishedAlike⟩ := hosts.finish
      simp only [finished, alsoFinished]
      cases result <;> exact .ended (State.alike_of_host finishedAlike _ _ _)
  | some op =>
      obtain ⟨opcode, operand⟩ := op
      cases tape.get? pointer with
      | none =>
          cases opcode with
          | shiftRight | shiftLeft | loopEnd => exact .running (same _ _ _)
          | _ => exact .ended (same _ _ _)
      | some cell =>
          cases opcode with
          | output => exact .running (State.alike_of_host (hosts.putCell cell) _ _ _)
          | input =>
              obtain ⟨value, next, after, got, alsoGot, gotAlike⟩ := hosts.getCell
              simp only [got, alsoGot]
              exact .running (State.alike_of_host gotAlike _ _ _)
          | loopStart =>
              simp only
              split <;> exact .running (same _ _ _)
          | _ => exact .running (same _ _ _)

theorem run_alike (alike : state.Alike other) (fuel : Nat) :
    (run program fuel other).map observe = (run program fuel state).map observe := by
  induction fuel generalizing state other with
  | zero => rfl
  | succ fuel ih =>
      have steps := @step_alike program _ _ alike
      simp only [run]
      generalize step program state = first at steps
      generalize step program other = second at steps
      cases steps with
      | running next => exact ih next
      | ended last => exact congrArg some last.observe

theorem terminates_iff : Terminates program state ↔ ∃ fuel, (run program fuel state).isSome := by
  simp only [Terminates, Option.isSome_iff_exists, Prod.exists]

end Native

/-- The same input with interruptions put in among the outcomes of its reads. -/
structure Input.Interrupted (input other : Input) : Prop where
  outcomes : Inserted (·.isInterruption = true) input.outcomes other.outcomes
  taken : other.taken = input.taken

/-- The same output with interruptions put in among its refusals, all of them in order. -/
structure Output.Interrupted (output other : Output) : Prop where
  refusals : Inserted (·.isInterruption = true) output.refusals other.refusals
  ordered : Refusal.Ordered other.refusals
  accepted : other.accepted = output.accepted
  flushFault : other.flushFault = output.flushFault
  flushes : other.flushes = output.flushes

theorem Input.Interrupted.alike {input other : Input} (interrupted : input.Interrupted other) :
    input.Alike other where
  taken := interrupted.taken
  outcomes := interrupted.outcomes.filter_eq fun outcome interruption => by rw [interruption]; rfl

theorem Output.Interrupted.alike {output other : Output} (interrupted : output.Interrupted other) :
    output.Alike other where
  accepted := interrupted.accepted
  refusals := interrupted.refusals.filter_eq fun refusal interruption => by rw [interruption]; rfl
  ordered := List.Pairwise.sublist interrupted.refusals.sublist interrupted.ordered
  otherOrdered := interrupted.ordered
  flushFault := interrupted.flushFault
  flushes := interrupted.flushes

theorem isSome_of_observed {Result Observed : Type} {observe : Result → Observed}
    {first second : Option Result} (same : second.map observe = first.map observe) :
    second.isSome = first.isSome := by
  rw [← Option.isSome_map, same, Option.isSome_map]

/-- Interruptions cannot be seen.  Put any number of them among the outcomes of reads and, as long as
those stay in order, among the refusals of writes: interpreted and native runs end as before, after
as many steps, with the same fault if any, on the same tape, with the same bytes read and written and
as many flushes. -/
theorem interruptions_unseen (program : Program) (tape : Tape) {input other : Input}
    {output otherOutput : Output} (reads : input.Interrupted other)
    (writes : output.Interrupted otherOutput) :
    (∀ policy,
      (Interpreter.Terminates policy program (.start tape other otherOutput) ↔
        Interpreter.Terminates policy program (.start tape input output)) ∧
      ∀ fuel,
        (Interpreter.run policy program fuel (.start tape other otherOutput)).map
            Interpreter.observe =
          (Interpreter.run policy program fuel (.start tape input output)).map
            Interpreter.observe) ∧
    (Native.Terminates program (.start tape (.ofStreams other otherOutput)) ↔
      Native.Terminates program (.start tape (.ofStreams input output))) ∧
    ∀ fuel,
      (Native.run program fuel (.start tape (.ofStreams other otherOutput))).map Native.observe =
        (Native.run program fuel (.start tape (.ofStreams input output))).map Native.observe := by
  have hosts : (Host.ofStreams input output).Alike (.ofStreams other otherOutput) :=
    ⟨reads.alike, writes.alike, rfl⟩
  have interpreted (policy : BoundsPolicy) := @Interpreter.run_alike policy program _ _
    (Interpreter.State.alike_of_streams reads.alike writes.alike 0 0 tape)
  have native := @Native.run_alike program _ _ (Native.State.alike_of_host hosts 0 0 tape)
  refine ⟨fun policy => ⟨?_, interpreted policy⟩, ?_, native⟩
  · rw [Interpreter.terminates_iff, Interpreter.terminates_iff]
    exact exists_congr fun fuel => Bool.eq_iff_iff.mp (isSome_of_observed (interpreted policy fuel))
  · rw [Native.terminates_iff, Native.terminates_iff]
    exact exists_congr fun fuel => Bool.eq_iff_iff.mp (isSome_of_observed (native fuel))

/-- `,..` reads through an interruption, and is interrupted twice more before the second write is
refused. -/
theorem interruptions_unseen_refused :
    ∃ program, Program.resolve (Source.ops ",..") = .ok program ∧
      (Input.mk [.byte 65] 0).Interrupted ⟨[.fails ⟨.interrupted, "a signal"⟩, .byte 65], 0⟩ ∧
      (Output.mk #[] [⟨1, .acceptsNothing⟩] none 0).Interrupted
        ⟨#[], [⟨0, .fails ⟨.interrupted, "a signal"⟩⟩, ⟨1, .fails ⟨.interrupted, "another"⟩⟩,
          ⟨1, .acceptsNothing⟩], none, 0⟩ ∧
      (Native.run program 4 (.start (.zeroed 1) (.ofStreams
          ⟨[.fails ⟨.interrupted, "a signal"⟩, .byte 65], 0⟩
          ⟨#[], [⟨0, .fails ⟨.interrupted, "a signal"⟩⟩, ⟨1, .fails ⟨.interrupted, "another"⟩⟩,
            ⟨1, .acceptsNothing⟩], none, 0⟩))).map Native.observe =
        some ⟨.faulted .nothingAccepted, ⟨#[65]⟩, #[65], 1, 0⟩ := by
  have resolved : ∃ program, Program.resolve (Source.ops ",..") = .ok program ∧
      (Native.run program 4 (.start (.zeroed 1) (.ofStreams ⟨[.byte 65], 0⟩
          ⟨#[], [⟨1, .acceptsNothing⟩], none, 0⟩))).map Native.observe =
        some ⟨.faulted .nothingAccepted, ⟨#[65]⟩, #[65], 1, 0⟩ := ⟨_, rfl, by decide⟩
  obtain ⟨program, accepted, undisturbed⟩ := resolved
  have reads : (Input.mk [.byte 65] 0).Interrupted
      ⟨[.fails ⟨.interrupted, "a signal"⟩, .byte 65], 0⟩ := ⟨.put rfl (.keep .nil), rfl⟩
  have writes : (Output.mk #[] [⟨1, .acceptsNothing⟩] none 0).Interrupted
      ⟨#[], [⟨0, .fails ⟨.interrupted, "a signal"⟩⟩, ⟨1, .fails ⟨.interrupted, "another"⟩⟩,
        ⟨1, .acceptsNothing⟩], none, 0⟩ :=
    ⟨.put rfl (.put rfl (.keep .nil)), by simp [Refusal.Ordered], rfl, rfl, rfl⟩
  obtain ⟨-, -, native⟩ := interruptions_unseen program (.zeroed 1) reads writes
  exact ⟨program, accepted, reads, writes, (native 4).trans undisturbed⟩

end Tapewright
