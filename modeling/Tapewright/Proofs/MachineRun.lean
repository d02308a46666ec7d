import Tapewright.Proofs.CodeLayout
import Tapewright.Proofs.FlatMemory

namespace Tapewright.X86

/-! Executing code step by step.

A path is a sequence of instructions that all go on; what holds of every machine on the way
is kept with it.  Instructions are fetched where the layout says they are.
-/

namespace Machine

/-- The machine after so many instructions, if each of them goes on. -/
def after (code : List UInt8) (side : HostSide) (context : UInt64) : Nat → Machine → Option Machine
  | 0, machine => some machine
  | count + 1, machine =>
      match machine.step code side context with
      | .running next => after code side context count next
      | _ => none

variable {code : List UInt8} {side : HostSide} {context : UInt64} {machine next last : Machine}
  {count fuel : Nat}

theorem after_add (first second : Nat) (machine : Machine) :
    after code side context (first + second) machine =
      (after code side context first machine).bind (after code side context second) := by
  induction first generalizing machine with
  | zero => rw [Nat.zero_add]; rfl
  | succ first ih =>
      rw [Nat.succ_add, after, after]
      cases machine.step code side context with
      | running next => exact ih next
      | returned last => rfl
      | stuck => rfl

theorem run_of_after (reached : after code side context count machine = some next) (fuel : Nat) :
    run code side context (count + fuel) machine = run code side context fuel next := by
  induction count generalizing machine with
  | zero =>
      cases reached
      rw [Nat.zero_add]
  | succ count ih =>
      rw [Nat.succ_add, run]
      rw [after] at reached
      cases stepped : machine.step code side context with
      | running middle =>
          rw [stepped] at reached
          exact ih reached
      | returned final => rw [stepped] at reached; cases reached
      | stuck => rw [stepped] at reached; cases reached

theorem running_of_after {fewer : Nat} (reached : after code side context count machine = some last)
    (earlier : fewer < count) (there : after code side context fewer machine = some next) :
    ∃ further, next.step code side context = .running further := by
  obtain ⟨more, rfl⟩ : ∃ more, count = fewer + (more + 1) := ⟨count - (fewer + 1), by omega⟩
  rw [after_add, there, Option.bind_some, after] at reached
  cases stepped : next.step code side context with
  | running further => exact ⟨further, rfl⟩
  | returned final => rw [stepped] at reached; cases reached
  | stuck => rw [stepped] at reached; cases reached

theorem after_none_of_run (ended : run code side context fuel machine = some last)
    (more : fuel ≤ count) : after code side context count machine = none := by
  induction fuel generalizing machine count with
  | zero => cases ended
  | succ fuel ih =>
      obtain ⟨count, rfl⟩ : ∃ fewer, count = fewer + 1 := ⟨count - 1, by omega⟩
      rw [run] at ended
      rw [after]
      cases stepped : machine.step code side context with
      | running middle =>
          rw [stepped] at ended
          exact ih ended (by omega)
      | returned final => rfl
      | stuck => rfl

theorem run_unique {other : Nat} {final : Machine} (ended : run code side context fuel machine = some last)
    (alsoEnded : run code side context other machine = some final) : last = final := by
  induction fuel generalizing other machine with
  | zero => cases ended
  | succ fuel ih =>
      cases other with
      | zero => cases alsoEnded
      | succ other =>
          rw [run] at ended alsoEnded
          cases stepped : machine.step code side context with
          | running middle =>
              rw [stepped] at ended alsoEnded
              exact ih ended alsoEnded
          | returned result =>
              rw [stepped] at ended alsoEnded
              exact Option.some.inj (ended.symm.trans alsoEnded)
          | stuck =>
              rw [stepped] at ended
              cases ended

theorem run_of_returned (reached : after code side context count machine = some next)
    (returned : next.step code side context = .returned last) :
    run code side context (count + 1) machine = some last := by
  rw [run_of_after reached, run, returned]

/-- So many instructions that go on, with what holds before each of them. -/
inductive Path (code : List UInt8) (side : HostSide) (context : UInt64) (holds : Machine → Prop) :
    Nat → Machine → Machine → Prop where
  | nil {machine : Machine} : Path code side context holds 0 machine machine
  | cons {count : Nat} {machine next last : Machine} (here : holds machine)
      (running : machine.step code side context = .running next)
      (rest : Path code side context holds count next last) :
      Path code side context holds (count + 1) machine last

namespace Path

variable {holds : Machine → Prop}

theorem after_eq (path : Path code side context holds count machine last) :
    after code side context count machine = some last := by
  induction path with
  | nil => rfl
  | cons _ running _ ih =>
      rw [after, running]
      exact ih

theorem concat (path : Path code side context holds count machine next) (here : holds next)
    (running : next.step code side context = .running last) :
    Path code side context holds (count + 1) machine last := by
  induction path with
  | nil => exact .cons here running .nil
  | cons first step _ ih => exact .cons first step (ih here running)

theorem holds_before (path : Path code side context holds count machine last) {fewer : Nat}
    (earlier : fewer < count) (reached : after code side context fewer machine = some next) :
    holds next := by
  induction path generalizing fewer with
  | nil => omega
  | cons here running _ ih =>
      cases fewer with
      | zero =>
          cases reached
          exact here
      | succ fewer =>
          rw [after, running] at reached
          exact ih (by omega) reached

end Path

theorem step_of_codeAt {instruction : Instruction} {rest : List Instruction} {position : Nat}
    {progress : Progress} (loaded : CodeAt code position (instruction :: rest))
    (here : machine.position = position)
    (executed : { machine with position := position + instruction.size }.execute side context
      instruction = progress) :
    machine.step code side context = progress := by
  subst here
  obtain ⟨tail, decoded, size⟩ := loaded.fetch
  rw [step, decoded, ← executed, ← size]

end Machine

end Tapewright.X86
