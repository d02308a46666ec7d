import Tapewright.AheadOfTime

namespace Tapewright

/-! The order of effects of a program that is built ahead of time.

The toolchain comes first, then the input, the launch, the writes and the flush, and the exit
status last.  Whatever fails, the streams show how far things got: nothing is read without an
executable, nothing is launched on input that could not be read or kept, and what a process printed
is written as far as the output takes it.
-/

/-- Whether a copy goes on after an outcome: after a byte, which it keeps, and after an
interruption. -/
def ReadOutcome.passes : ReadOutcome → Bool
  | .byte _ => true
  | .endOfStream => false
  | .fails fault => fault.isInterruption

def ReadOutcome.byte? : ReadOutcome → Option UInt8
  | .byte value => some value
  | _ => none

namespace Input

/-- What a copy of an input up to its first end brings, and the input that is left.  The bytes
before a fault are taken too. -/
inductive Copies (input : Input) : Except Fault (List UInt8) → Input → Prop where
  | exhausted (passing : ∀ outcome ∈ input.outcomes, outcome.passes = true) :
      Copies input (.ok (input.outcomes.filterMap ReadOutcome.byte?))
        ⟨[], input.taken + (input.outcomes.filterMap ReadOutcome.byte?).length⟩
  | ended {passed rest : List ReadOutcome} (whole : input.outcomes = passed ++ .endOfStream :: rest)
      (passing : ∀ outcome ∈ passed, outcome.passes = true) :
      Copies input (.ok (passed.filterMap ReadOutcome.byte?))
        ⟨rest, input.taken + (passed.filterMap ReadOutcome.byte?).length⟩
  | failed {passed rest : List ReadOutcome} {fault : Fault}
      (whole : input.outcomes = passed ++ .fails fault :: rest)
      (passing : ∀ outcome ∈ passed, outcome.passes = true) (real : fault.isInterruption = false) :
      Copies input (.error fault)
        ⟨rest, input.taken + (passed.filterMap ReadOutcome.byte?).length⟩

theorem copyFrom_passing {passed : List ReadOutcome}
    (passing : ∀ outcome ∈ passed, outcome.passes = true) (copied : List UInt8)
    (rest : List ReadOutcome) :
    copyFrom copied (passed ++ rest) =
      copyFrom ((passed.filterMap ReadOutcome.byte?).reverse ++ copied) rest := by
  induction passed generalizing copied with
  | nil => rfl
  | cons outcome later ih =>
      obtain ⟨here, onward⟩ := List.forall_mem_cons.mp passing
      cases outcome with
      | byte value =>
          rw [List.cons_append, copyFrom, ih onward]
          simp [ReadOutcome.byte?]
      | endOfStream => cases here
      | fails fault =>
          have interrupted : fault.isInterruption = true := here
          rw [List.cons_append, copyFrom, if_pos interrupted, ih onward]
          rfl

theorem Copies.spool_eq {input after : Input} {result : Except Fault (List UInt8)}
    (copies : input.Copies result after) : input.spool = (result, after) := by
  cases copies with
  | exhausted passing =>
      have copy := copyFrom_passing passing [] []
      rw [List.append_nil, List.append_nil] at copy
      simp [spool, copy, copyFrom]
  | ended whole passing =>
      have copy := copyFrom_passing passing []
      simp [spool, whole, copy, copyFrom]
  | failed whole passing real =>
      have copy := copyFrom_passing passing []
      simp [spool, whole, copy, copyFrom, real]

theorem exists_copies (input : Input) : ∃ result after, input.Copies result after := by
  have passing : ∀ outcome ∈ input.outcomes.takeWhile ReadOutcome.passes, outcome.passes = true :=
    List.all_eq_true.mp List.all_takeWhile
  have whole : input.outcomes = input.outcomes.takeWhile ReadOutcome.passes ++
      input.outcomes.dropWhile ReadOutcome.passes := List.takeWhile_append_dropWhile.symm
  cases rest : input.outcomes.dropWhile ReadOutcome.passes with
  | nil =>
      rw [rest, List.append_nil] at whole
      rw [← whole] at passing
      exact ⟨_, _, .exhausted passing⟩
  | cons outcome later =>
      have stops : outcome.passes = false := by
        have head := List.head?_dropWhile_not ReadOutcome.passes input.outcomes
        simpa [rest] using head
      rw [rest] at whole
      cases outcome with
      | byte value => cases stops
      | endOfStream => exact ⟨_, _, .ended whole passing⟩
      | fails fault => exact ⟨_, _, .failed whole passing stops⟩

end Input

namespace Output

/-- The fault that meets a write once so many bytes are accepted. -/
def refusal? (output : Output) (accepted : Nat) : Option Fault :=
  (dueFault accepted output.refusals).1

/-- Interruptions that were spent on an earlier write make no difference to a later one. -/
theorem dueFault_later {first later : Nat} (order : first ≤ later) {refusals rest : List Refusal}
    (free : dueFault first refusals = (none, rest)) :
    (dueFault later rest).1 = (dueFault later refusals).1 := by
  induction refusals with
  | nil => cases free; rfl
  | cons refusal others ih =>
      rw [dueFault] at free
      split at free
      · rename_i due
        cases cause : refusal.cause.fault? with
        | none =>
            rw [cause] at free
            rw [ih free, dueFault, if_pos (Nat.le_trans due order), cause]
        | some fault =>
            rw [cause] at free
            cases free
      · cases free
        rfl

/-- How far bytes are written: up to the first that is refused, or all of them. -/
structure Takes (output : Output) (bytes : List UInt8) (count : Nat) (fault : Option Fault)
    (last : Output) : Prop where
  within : count ≤ bytes.length
  accepted : last.accepted.toList = output.accepted.toList ++ bytes.take count
  unrefused : ∀ earlier, earlier < count → output.refusal? (output.accepted.size + earlier) = none
  stopped : count < bytes.length →
    ∃ reason, output.refusal? (output.accepted.size + count) = some reason ∧ fault = some reason
  complete : count = bytes.length → fault = none
  flushes : last.flushes = output.flushes
  flushFault : last.flushFault = output.flushFault

theorem takes_of_putAll {output last : Output} {bytes : List UInt8} {fault : Option Fault}
    (written : output.putAll bytes = (fault, last)) : ∃ count, output.Takes bytes count fault last := by
  induction bytes generalizing output with
  | nil =>
      cases written
      exact ⟨0, Nat.le_refl 0, by simp, nofun, nofun, fun _ => rfl, rfl, rfl⟩
  | cons byte rest ih =>
      rcases due : dueFault output.accepted.size output.refusals with ⟨refused, left⟩
      simp only [putAll, put, due] at written
      cases refused with
      | some reason =>
          cases written
          refine ⟨0, Nat.zero_le _, by simp, nofun, ?_, nofun, rfl, rfl⟩
          intro _
          exact ⟨reason, congrArg Prod.fst due, rfl⟩
      | none =>
          obtain ⟨count, takes⟩ := ih written
          have same (further : Nat) :
              refusal? { output with accepted := output.accepted.push byte, refusals := left }
                ((output.accepted.push byte).size + further) =
              output.refusal? (output.accepted.size + (further + 1)) := by
            rw [Array.size_push, Nat.add_assoc, Nat.add_comm 1]
            exact dueFault_later (Nat.le_add_right ..) due
          refine ⟨count + 1, Nat.succ_le_succ takes.within, ?_, ?_, ?_, ?_, takes.flushes, takes.flushFault⟩
          · rw [takes.accepted]
            simp
          · rintro (_ | earlier) less
            · exact congrArg Prod.fst due
            · rw [← same]
              exact takes.unrefused earlier (Nat.lt_of_succ_lt_succ less)
          · intro less
            rw [← same]
            exact takes.stopped (Nat.lt_of_succ_lt_succ less)
          · intro all
            exact takes.complete (Nat.succ.inj all)

end Output

namespace AheadOfTime

/-- What becomes of the bytes that a process printed, when the output accepts so many of them. -/
structure Delivers (output : Output) (printed : List UInt8) (status : ExitStatus) (count : Nat)
    (ending : Ending) (last : Output) : Prop where
  within : count ≤ printed.length
  accepted : last.accepted.toList = output.accepted.toList ++ printed.take count
  unrefused : ∀ earlier, earlier < count → output.refusal? (output.accepted.size + earlier) = none
  /-- Bytes are left out only because a write failed, and then its fault is reported. -/
  refused : count < printed.length →
    ∃ fault, output.refusal? (output.accepted.size + count) = some fault ∧ ending = .stream fault
  flushes : last.flushes = output.flushes + if count = printed.length then 1 else 0
  /-- The fault of the flush is reported whatever the exit status. -/
  unflushed : count = printed.length → ∀ fault, output.flushFault = some fault → ending = .stream fault
  failed : ∀ code, ending = .programFailed code ↔
    count = printed.length ∧ output.flushFault = none ∧ status.isSuccess = false ∧ code = status
  finished : ending = .finished ↔
    count = printed.length ∧ output.flushFault = none ∧ status.isSuccess = true

theorem deliver_delivers (printed : List UInt8) (status : ExitStatus) (record : Record) :
    ∃ count ending last, deliver printed status record = (ending, { record with output := last }) ∧
      Delivers record.output printed status count ending last := by
  rcases written : record.output.putAll printed with ⟨refused, output⟩
  obtain ⟨count, within, accepted, unrefused, stopped, complete, flushes, flushFault⟩ :=
    Output.takes_of_putAll written
  rcases Nat.lt_or_eq_of_le within with less | all
  · obtain ⟨fault, due, rfl⟩ := stopped less
    have short : count ≠ printed.length := Nat.ne_of_lt less
    refine ⟨count, .stream fault, output, by simp only [deliver, written], within, accepted, unrefused,
      fun _ => ⟨fault, due, rfl⟩, ?_, fun all => absurd all short, ?_, ?_⟩
    · rw [if_neg short]
      exact flushes
    · intro code
      exact ⟨nofun, fun all => absurd all.1 short⟩
    · exact ⟨nofun, fun all => absurd all.1 short⟩
  · obtain rfl := complete all
    have flushed : output.flush.2.flushes =
        record.output.flushes + if count = printed.length then 1 else 0 := by
      rw [if_pos all, ← flushes]
      rfl
    have notShort : ¬ count < printed.length := Nat.not_lt.mpr (Nat.le_of_eq all.symm)
    cases fails : record.output.flushFault with
    | some fault =>
        refine ⟨count, .stream fault, output.flush.2, ?_, within, accepted, unrefused,
          fun less => absurd less notShort, flushed, ?_, ?_, ?_⟩
        · simp only [deliver, written, Output.flush, flushFault, fails]
        · intro _ other same
          rw [← Option.some.inj (fails.symm.trans same)]
        · simp [fails]
        · simp [fails]
    | none =>
        refine ⟨count, if status.isSuccess then .finished else .programFailed status, output.flush.2, ?_,
          within, accepted, unrefused, fun less => absurd less notShort, flushed, ?_, ?_, ?_⟩
        · simp only [deliver, written, Output.flush, flushFault, fails]
        · simp [fails]
        · cases status.isSuccess <;> simp [all, fails, eq_comm]
        · cases status.isSuccess <;> simp [all, fails]

/-- The effects of a program that is built ahead of time come in order, and whatever fails first
decides the ending.  The toolchain is asked once, for the text of the program; without an
executable the streams are left alone.  The input is read up to its first end, into a temporary
file that works, and a fault there keeps the executable from being launched.  A launch that is refused writes nothing; otherwise
what was printed is delivered. -/
theorem run_in_order (toolchain : Toolchain) (program : Program) (input : Input) (output : Output)
    (fuel : Nat) :
    (∀ error, toolchain.build (C.emit program) = .error error →
      run toolchain program fuel (.start input output) =
        some (.toolchain error, ⟨[C.emit program], [], input, output⟩)) ∧
    ∀ executable, toolchain.build (C.emit program) = .ok executable →
      (∃ result after, input.Copies result after) ∧
      (∀ fault after, input.Copies (.error fault) after →
        run toolchain program fuel (.start input output) =
          some (.stream fault, ⟨[C.emit program], [], after, output⟩)) ∧
      ∀ bytes after, input.Copies (.ok bytes) after →
        (executable fuel bytes = none → run toolchain program fuel (.start input output) = none) ∧
        (∀ fault, executable fuel bytes = some (.refused fault) →
          run toolchain program fuel (.start input output) =
            some (.launch fault, ⟨[C.emit program], [bytes], after, output⟩)) ∧
        ∀ printed status, executable fuel bytes = some (.exited printed status) →
          ∃ count ending last,
            run toolchain program fuel (.start input output) =
              some (ending, ⟨[C.emit program], [bytes], after, last⟩) ∧
            Delivers output printed status count ending last := by
  refine ⟨?_, ?_⟩
  · intro error refused
    simp only [run, refused, Record.start, List.nil_append]
  · intro executable built
    refine ⟨input.exists_copies, ?_, ?_⟩
    · intro fault after copies
      simp only [run, built, launch, Record.start, copies.spool_eq, List.nil_append]
    · intro bytes after copies
      refine ⟨?_, ?_, ?_⟩
      · intro going
        simp only [run, built, launch, Record.start, copies.spool_eq, going]
      · intro fault refused
        simp only [run, built, launch, Record.start, copies.spool_eq, refused, List.nil_append]
      · intro printed status exited
        obtain ⟨count, ending, last, delivered, delivers⟩ :=
          deliver_delivers printed status ⟨[C.emit program], [bytes], after, output⟩
        refine ⟨count, ending, last, ?_, delivers⟩
        simp only [run, built, launch, Record.start, copies.spool_eq, exited, List.nil_append, delivered]

/-- A write that is refused after one byte: the other byte and the flush are left out, and the
exit status is not looked at. -/
theorem run_in_order_refused_write :
    ∃ last, run ⟨[], fun _ => .ok (.constant [112, 113] (.code 3))⟩ ⟨#[]⟩ 0
        (.start ⟨[.byte 7, .fails ⟨.interrupted, ""⟩, .byte 8, .endOfStream, .byte 9], 0⟩
          ⟨#[], [⟨1, .acceptsNothing⟩], none, 0⟩) =
        some (.stream .nothingAccepted, ⟨[C.emit ⟨#[]⟩], [[7, 8]], ⟨[.byte 9], 2⟩, last⟩) ∧
      last.accepted.toList = [112] ∧ last.flushes = 0 := by
  obtain ⟨_, built⟩ := run_in_order ⟨[], fun _ => .ok (.constant [112, 113] (.code 3))⟩ ⟨#[]⟩
    ⟨[.byte 7, .fails ⟨.interrupted, ""⟩, .byte 8, .endOfStream, .byte 9], 0⟩
    ⟨#[], [⟨1, .acceptsNothing⟩], none, 0⟩ 0
  obtain ⟨_, _, copied⟩ := built _ rfl
  obtain ⟨_, _, exited⟩ := copied [7, 8] ⟨[.byte 9], 2⟩
    (@Input.Copies.ended _ [.byte 7, .fails ⟨.interrupted, ""⟩, .byte 8] [.byte 9] rfl (by decide))
  obtain ⟨count, ending, last, ran, delivers⟩ := exited [112, 113] (.code 3) rfl
  -- The first byte is taken and the second one is not.
  have one : count = 1 := by
    rcases count with _ | _ | count
    · obtain ⟨fault, refused, _⟩ := delivers.refused (by decide)
      cases refused
    · rfl
    · cases delivers.unrefused 1 (by omega)
  subst one
  obtain ⟨fault, refused, rfl⟩ := delivers.refused (by decide)
  obtain rfl := Option.some.inj refused
  exact ⟨last, ran, delivers.accepted, delivers.flushes⟩

/-- When the temporary file fails, all that has happened is the build and some reads of the input. -/
theorem run_of_spool_failed {toolchain : Toolchain} {program : Program} {executable : Executable}
    {spool : Spool} {fault : Fault} (built : toolchain.build (C.emit program) = .ok executable)
    (fails : spool = .missing fault ∨ ∃ reads, spool = .broken reads fault) (input : Input)
    (output : Output) (fuel : Nat) :
    ∃ left, run toolchain program fuel (.start input output) spool =
        some (.stream fault, ⟨[C.emit program], [], left, output⟩) ∧
      left.outcomes <:+ input.outcomes := by
  rcases fails with rfl | ⟨reads, rfl⟩
  · exact ⟨input, by simp only [run, built, launch, Record.start, List.nil_append], List.suffix_refl _⟩
  · exact ⟨input.afterReads reads, by simp only [run, built, launch, Record.start, List.nil_append],
      List.drop_suffix ..⟩

end AheadOfTime

end Tapewright
