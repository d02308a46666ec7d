import Tapewright.Proofs.EffectOrder
import Tapewright.Proofs.Interruptions
import Tapewright.Proofs.Parking
import Tapewright.Proofs.Rounds

namespace Tapewright

/-! Copying an input up to its end.

A byte is read as a number from 0 to 255 and the end of the input as -1, so that a cell that is
stepped up after each read is zero at the end of the input and nowhere before.  A loop over such a
cell takes one round for each byte, and the byte it writes is the one that was read.  A native run
copies what an interpreted run copies, since no transfer fails in a run that finishes.
-/

theorem toInt_byteCell (byte : UInt8) : (byteCell byte).toInt = byte.toNat := by
  have small := byte.toNat_lt
  have low : 2 * byte.toUInt32.toBitVec.toNat < 2 ^ 32 := by
    rw [UInt32.toNat_toBitVec, UInt8.toNat_toUInt32]
    omega
  exact BitVec.toInt_eq_toNat_of_lt low

/-- No byte is read as what stands for the end of the input. -/
theorem byteCell_ne_endOfInputCell (byte : UInt8) : byteCell byte ≠ endOfInputCell := by
  intro same
  have negative : (byteCell byte).toInt = -1 := congrArg Int32.toInt same
  rw [toInt_byteCell] at negative
  omega

theorem byteCell_add_one_ne_zero (byte : UInt8) : byteCell byte + 1 ≠ 0 := by
  intro zero
  apply byteCell_ne_endOfInputCell byte
  rw [← Int32.add_sub_cancel (byteCell byte) 1, zero]
  rfl

/-- A byte is written as it was read. -/
theorem cellByte_byteCell (byte : UInt8) : cellByte (byteCell byte) = byte := by
  rw [cellByte, byteCell, UInt32.toUInt32_toInt32, UInt8.toUInt8_toUInt32]

namespace Input

/-- What a read brings when these are the bytes left. -/
def ahead : List UInt8 → Int32
  | [] => endOfInputCell
  | byte :: _ => byteCell byte

/-- The input behind that read. -/
def beyond (taken : Nat) : List UInt8 → Input
  | [] => ⟨[], taken⟩
  | _ :: rest => ⟨rest.map .byte, taken + 1⟩

theorem getCell_bytes (bytes : List UInt8) (taken : Nat) :
    getCell ⟨bytes.map .byte, taken⟩ = (.ok (ahead bytes), beyond taken bytes) := by
  cases bytes <;> rfl

end Input

namespace Output

variable {output : Output}

/-- No write fails, however many bytes there are, and neither does the next flush. -/
structure NeverFails (output : Output) : Prop where
  writes : ∀ bytes, (output.putAll bytes).1 = none
  flush : output.flushFault = none

theorem NeverFails.exists_putAll (reliable : output.NeverFails) (bytes : List UInt8) :
    ∃ last, output.putAll bytes = (none, last) ∧ last.accepted = output.accepted ++ bytes.toArray ∧
      last.flushes = output.flushes ∧ last.flushFault = none := by
  rcases written : output.putAll bytes with ⟨fault, last⟩
  obtain rfl : fault = none := by rw [← reliable.writes bytes, written]
  obtain ⟨count, takes⟩ := takes_of_putAll written
  have all : count = bytes.length := by
    rcases Nat.lt_or_eq_of_le takes.within with less | all
    · obtain ⟨reason, _, stopped⟩ := takes.stopped less
      cases stopped
    · exact all
  refine ⟨last, rfl, ?_, takes.flushes, takes.flushFault.trans reliable.flush⟩
  apply Array.toList_inj.mp
  rw [takes.accepted, all, List.take_length]
  simp

theorem dueFault_interruptions {refusals : List Refusal}
    (interruptions : ∀ refusal ∈ refusals, refusal.isInterruption = true) (accepted : Nat) :
    (dueFault accepted refusals).1 = none := by
  induction refusals with
  | nil => rfl
  | cons refusal rest ih =>
      obtain ⟨first, others⟩ := List.forall_mem_cons.mp interruptions
      rw [dueFault]
      split
      · rw [fault?_eq_none first]
        exact ih others
      · rfl

/-- An output that does no more than interrupt its writes never fails. -/
theorem neverFails_of_interruptions
    (interruptions : ∀ refusal ∈ output.refusals, refusal.isInterruption = true)
    (flush : output.flushFault = none) : output.NeverFails := by
  refine ⟨?_, flush⟩
  intro bytes
  induction bytes generalizing output with
  | nil => rfl
  | cons byte rest ih =>
      have free := dueFault_interruptions interruptions output.accepted.size
      have left := (dueFault_suffix output.accepted.size output.refusals).subset
      rcases due : dueFault output.accepted.size output.refusals with ⟨fault, later⟩
      rw [due] at free left
      obtain rfl : fault = none := free
      rw [putAll, put, due]
      exact ih (fun refusal member => interruptions refusal (left member)) flush

end Output

namespace LoopTree

open Interpreter

variable {policy : BoundsPolicy} {rounds : Nat} {state : State} {next : LoopTree}

/-- Read a cell, then step it up. -/
theorem evalRounds_readUp {cell value : Int32} {input : Input} (index : Nat)
    (found : state.tape.get? state.pointer = some cell)
    (read : state.input.getCell = (.ok value, input)) :
    evalRounds policy rounds (.act index ⟨.input, 1⟩ (.act (index + 1) ⟨.increment, 1⟩ next)) state =
      evalRounds policy rounds next
        ⟨0, state.pointer, state.tape.set state.pointer (value + 1), input, state.output⟩ := by
  have taken : Interpreter.act policy ⟨.input, 1⟩ (state.at index) = .running
      ⟨index + 1, state.pointer, state.tape.set state.pointer value, input, state.output⟩ := by
    simp only [Interpreter.act, State.at, read, found]
  have stored : (state.tape.set state.pointer value).get? state.pointer = some value :=
    Tape.get?_set_self found
  have up : Interpreter.act policy ⟨.increment, 1⟩
      (State.at ⟨0, state.pointer, state.tape.set state.pointer value, input, state.output⟩ (index + 1)) =
      .running ⟨index + 2, state.pointer, state.tape.set state.pointer (value + 1), input,
        state.output⟩ := by
    simp only [Interpreter.act, State.at, stored, Tape.set_set]
  rw [evalRounds_act taken]
  exact evalRounds_act up

/-- Step a cell down, then write it. -/
theorem evalRounds_downWrite {value : Int32} {output : Output} (index : Nat)
    (found : state.tape.get? state.pointer = some (value + 1))
    (written : state.output.putCell value = (none, output)) :
    evalRounds policy rounds (.act index ⟨.decrement, 1⟩ (.act (index + 1) ⟨.output, 1⟩ next)) state =
      evalRounds policy rounds next
        ⟨0, state.pointer, state.tape.set state.pointer value, state.input, output⟩ := by
  have down : Interpreter.act policy ⟨.decrement, 1⟩ (state.at index) = .running
      ⟨index + 1, state.pointer, state.tape.set state.pointer value, state.input, state.output⟩ := by
    simp only [Interpreter.act, State.at, found, Int32.add_sub_cancel]
  have stored : (state.tape.set state.pointer value).get? state.pointer = some value :=
    Tape.get?_set_self found
  have put : Interpreter.act policy ⟨.output, 1⟩
      (State.at ⟨0, state.pointer, state.tape.set state.pointer value, state.input, state.output⟩
        (index + 1)) =
      .running ⟨index + 2, state.pointer, state.tape.set state.pointer value, state.input, output⟩ := by
    simp only [Interpreter.act, State.at, stored, written]
  rw [evalRounds_act down]
  exact evalRounds_act put

/-- Write the byte that was read, and read the next one. -/
def echoBody : LoopTree :=
  .act 3 ⟨.decrement, 1⟩ (.act 4 ⟨.output, 1⟩ (.act 5 ⟨.input, 1⟩ (.act 6 ⟨.increment, 1⟩ .done)))

/-- Read on ahead, and echo as long as there was a byte. -/
def echo : LoopTree :=
  .act 0 ⟨.input, 1⟩ (.act 1 ⟨.increment, 1⟩ (.loop 2 echoBody .done))

variable {tape : Tape} {pointer : UInt64} {cell : Int32} {output last : Output}

theorem evalRounds_echoBody {byte : UInt8} (found : tape.get? pointer = some cell)
    (written : output.put byte = (none, last)) (rest : List UInt8) (taken : Nat) :
    evalRounds policy rounds echoBody
        ⟨0, pointer, tape.set pointer (byteCell byte + 1), ⟨rest.map .byte, taken⟩, output⟩ =
      .completed ⟨0, pointer, tape.set pointer (Input.ahead rest + 1), .beyond taken rest, last⟩ := by
  have put : output.putCell (byteCell byte) = (none, last) := by
    rw [Output.putCell, cellByte_byteCell, written]
  have stored (value : Int32) : (tape.set pointer value).get? pointer = some value :=
    Tape.get?_set_self found
  rw [echoBody, evalRounds_downWrite 3 (stored _) put, Tape.set_set,
    evalRounds_readUp 5 (stored _) (Input.getCell_bytes rest taken), Tape.set_set]
  rfl

/-- One round writes one byte, and the read in it decides whether there is another round.  The
first byte of those left has been read when the loop starts. -/
theorem repeatBody_echoBody {bytes : List UInt8} (found : tape.get? pointer = some cell)
    (written : output.putAll bytes = (none, last)) (taken : Nat) :
    repeatBody policy 2 (evalRounds policy rounds echoBody) bytes.length
        ⟨0, pointer, tape.set pointer (Input.ahead bytes + 1), .beyond taken bytes, output⟩ =
      .completed ⟨0, pointer, tape.set pointer 0, ⟨[], taken + bytes.length⟩, last⟩ := by
  induction bytes generalizing output taken with
  | nil =>
      cases written
      exact repeatBody_zero 0 (Tape.get?_set_self found)
  | cons byte rest ih =>
      rcases first : output.put byte with ⟨fault, next⟩
      rw [Output.putAll, first] at written
      cases fault with
      | some fault => cases written
      | none =>
          have later := ih written (taken + 1)
          rw [Nat.add_assoc, Nat.add_comm 1] at later
          rw [List.length_cons,
            repeatBody_succ _ (Tape.get?_set_self found) (byteCell_add_one_ne_zero byte)]
          simp only [Input.ahead, Input.beyond, evalRounds_echoBody found first, Progress.andThen]
          exact later

theorem evalRounds_echo {bytes : List UInt8} (found : tape.get? 0 = some cell)
    (written : output.putAll bytes = (none, last)) :
    evalRounds policy bytes.length echo (.start tape (.ofBytes bytes) output) =
      .completed ⟨0, 0, tape.set 0 0, ⟨[], bytes.length⟩, last⟩ := by
  have looped := @repeatBody_echoBody policy bytes.length _ _ _ _ _ _ found written 0
  rw [Nat.zero_add] at looped
  rw [echo, evalRounds_readUp 0 found (Input.getCell_bytes bytes 0), evalRounds]
  exact congrArg (Progress.andThen · _) looped

end LoopTree

/-- The program of `,+[-.,+]`. -/
def Program.echo : Program :=
  ⟨#[⟨.input, 1⟩, ⟨.increment, 1⟩, ⟨.loopStart, 7⟩, ⟨.decrement, 1⟩, ⟨.output, 1⟩, ⟨.input, 1⟩,
    ⟨.increment, 1⟩, ⟨.loopEnd, 2⟩]⟩

theorem LoopTree.echo_placed : echo.Placed Program.echo 0 Program.echo.size := by
  have body : echoBody.Placed Program.echo 3 7 :=
    .act rfl ⟨nofun, nofun⟩ (.act rfl ⟨nofun, nofun⟩ (.act rfl ⟨nofun, nofun⟩
      (.act rfl ⟨nofun, nofun⟩ .done)))
  have loop : LoopTree.Placed Program.echo 2 8 (.loop 2 echoBody .done) :=
    .loop rfl rfl rfl body rfl rfl rfl .done
  exact .act rfl ⟨nofun, nofun⟩ (.act rfl ⟨nofun, nofun⟩ loop)

/-- Neither pass finds anything to do. -/
theorem Program.compile_echo {text : String} (commands : Source.ops text = Source.ops ",+[-.,+]")
    (optimize : Bool) : compile optimize text = .ok echo := by
  rw [compile, commands]
  cases optimize <;> rfl

theorem Interpreter.run_echo (policy : BoundsPolicy) {tape : Tape} {cell : Int32} {output : Output}
    (found : tape.get? 0 = some cell) (reliable : output.NeverFails) (bytes : List UInt8) :
    ∃ fuel final, run policy .echo fuel (.start tape (.ofBytes bytes) output) =
        some (.finished, final) ∧
      final.tape = tape.set 0 0 ∧ final.output.accepted = output.accepted ++ bytes.toArray ∧
      final.input.taken = bytes.length ∧ final.output.flushes = output.flushes + 1 := by
  obtain ⟨last, written, accepted, flushes, flush⟩ := reliable.exists_putAll bytes
  have follows := @LoopTree.evalRounds_follows policy _ _ _ _ LoopTree.echo_placed bytes.length
    (.start tape (.ofBytes bytes) output)
  rw [LoopTree.evalRounds_echo found written] at follows
  have result : LoopTree.Progress.result
      (.completed ⟨0, 0, tape.set 0 0, ⟨[], bytes.length⟩, last⟩) =
      some (.finished, ⟨0, 0, tape.set 0 0, ⟨[], bytes.length⟩, last.flush.2⟩) := by
    simp only [LoopTree.Progress.result, finish, Output.flush, flush]
  obtain ⟨fuel, final, ended, same⟩ := LoopTree.run_of_result follows result
  simp only [State.at, State.mk.injEq] at same
  obtain ⟨_, _, sameTape, sameInput, sameOutput⟩ := same
  refine ⟨fuel, final, ended, sameTape, ?_, ?_, ?_⟩
  · rw [sameOutput, ← accepted]
    rfl
  · rw [sameInput]
  · rw [sameOutput, ← flushes]
    rfl

/-- Any text with the commands `,+[-.,+]` copies its input, whichever bytes that has.  Optimized or
not, interpreted or native, on a zeroed tape with at least one cell and with an output that never
fails, the run finishes with all the bytes read and written in order and one flush, and leaves the
tape zeroed. -/
theorem echo_copies_input {text : String} (commands : Source.ops text = Source.ops ",+[-.,+]")
    (optimize : Bool) (bytes : List UInt8) {size : Nat} (inside : 0 < size) {output : Output}
    (reliable : output.NeverFails) :
    ∃ program, Program.compile optimize text = .ok program ∧
      (∀ policy, ∃ fuel,
        (Interpreter.run policy program fuel (.start (.zeroed size) (.ofBytes bytes) output)).map
            Interpreter.observe =
          some ⟨.finished, .zeroed size, output.accepted ++ bytes.toArray, bytes.length,
            output.flushes + 1⟩) ∧
      ∃ fuel,
        (Native.run program fuel
            (.start (.zeroed size) (.ofStreams (.ofBytes bytes) output))).map Native.observe =
          some ⟨.finished, .zeroed size, output.accepted ++ bytes.toArray, bytes.length,
            output.flushes + 1⟩ := by
  have found : (Tape.zeroed size).get? 0 = some 0 := by
    simp [Tape.zeroed, Tape.get?, inside]
  have ran (policy : BoundsPolicy) := Interpreter.run_echo policy found reliable bytes
  rw [Tape.set_of_get? found] at ran
  refine ⟨.echo, Program.compile_echo commands optimize, ?_, ?_⟩
  · intro policy
    obtain ⟨fuel, final, ended, tape, accepted, taken, flushes⟩ := ran policy
    refine ⟨fuel, ?_⟩
    simp only [ended, Option.map_some, Interpreter.observe, tape, accepted, taken, flushes]
  · obtain ⟨fuel, final, ended, tape, accepted, taken, flushes⟩ := ran .unchecked
    obtain ⟨other, nativeEnded⟩ := Native.run_of_finished ended
    refine ⟨other, (congrArg (Option.map Native.observe) nativeEnded).trans ?_⟩
    simp only [Option.map_some, Native.observe, Interpreter.State.native, Host.ofStreams, tape,
      accepted, taken, flushes]

/-- With comments around the commands, on a fresh tape, and with a write that is interrupted. -/
theorem echo_copies_input_commented :
    Source.ops "Echoes its input until end of stream\n,+[-.,+]\n" =
        Source.ops ",+[-.,+]" ∧
      0 < Tape.standardSize ∧
      (Output.mk #[] [⟨1, .fails ⟨.interrupted, "a signal"⟩⟩] none 0).NeverFails ∧
      ∃ program, Program.compile true
          "Echoes its input until end of stream\n,+[-.,+]\n" = .ok program ∧
        ∃ fuel,
          (Native.run program fuel (.start .fresh (.ofStreams (.ofBytes [0, 255, 65])
              ⟨#[], [⟨1, .fails ⟨.interrupted, "a signal"⟩⟩], none, 0⟩))).map Native.observe =
            some ⟨.finished, .fresh, #[0, 255, 65], 3, 1⟩ := by
  have commands : Source.ops
      "Echoes its input until end of stream\n,+[-.,+]\n" =
      Source.ops ",+[-.,+]" := rfl
  have inside : 0 < Tape.standardSize := by decide
  have reliable : (Output.mk #[] [⟨1, .fails ⟨.interrupted, "a signal"⟩⟩] none 0).NeverFails :=
    Output.neverFails_of_interruptions (by simp [Refusal.isInterruption, Fault.isInterruption]) rfl
  obtain ⟨program, compiled, -, native⟩ :=
    echo_copies_input commands true [0, 255, 65] inside reliable
  exact ⟨commands, inside, reliable, program, compiled, native⟩

end Tapewright
