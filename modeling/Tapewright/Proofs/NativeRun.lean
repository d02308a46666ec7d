import Tapewright.Native

namespace Tapewright.Native

/-! Native runs step by step.

A native run goes on, leaves the tape, or gets past its last op and reports what the host
has to report.
-/

variable {program : Program} {state next last : State} {count fuel : Nat}

/-- The ending of a run that stayed on the tape, by the fault it reports. -/
def Ending.ofResult : Option Fault → Ending
  | none => .finished
  | some fault => .faulted fault

/-- However long the run goes on, it never touches a cell off the tape. -/
def StaysOnTape (program : Program) (state : State) : Prop :=
  ∀ fuel pointer index last, run program fuel state ≠ some (.escaped pointer index, last)

def Terminates (program : Program) (state : State) : Prop :=
  ∃ fuel ending last, run program fuel state = some (ending, last)

/-- The state after so many ops, if the run goes on that long. -/
def after (program : Program) : Nat → State → Option State
  | 0, state => some state
  | count + 1, state =>
      match step program state with
      | .running next => after program count next
      | .ended _ _ => none

theorem run_of_after (reached : after program count state = some next) (fuel : Nat) :
    run program (count + fuel) state = run program fuel next := by
  induction count generalizing state with
  | zero =>
      cases reached
      rw [Nat.zero_add]
  | succ count ih =>
      rw [Nat.succ_add, run]
      rw [after] at reached
      cases stepped : step program state with
      | running middle =>
          rw [stepped] at reached
          exact ih reached
      | ended ending final =>
          rw [stepped] at reached
          cases reached

theorem after_succ_of_running (reached : after program count state = some next)
    (running : step program next = .running last) :
    after program (count + 1) state = some last := by
  induction count generalizing state with
  | zero =>
      cases reached
      rw [after, running]
      rfl
  | succ count ih =>
      rw [after] at reached ⊢
      cases stepped : step program state with
      | running middle =>
          rw [stepped] at reached
          exact ih reached
      | ended ending final =>
          rw [stepped] at reached
          cases reached

theorem after_succ (reached : after program (count + 1) state = some next) :
    ∃ middle, after program count state = some middle ∧ step program middle = .running next := by
  induction count generalizing state with
  | zero =>
      rw [after] at reached
      cases stepped : step program state with
      | running middle =>
          rw [stepped] at reached
          cases reached
          exact ⟨state, rfl, stepped⟩
      | ended ending final =>
          rw [stepped] at reached
          cases reached
  | succ count ih =>
      rw [after] at reached
      cases stepped : step program state with
      | running middle =>
          rw [stepped] at reached
          obtain ⟨before, earlier, running⟩ := ih reached
          exact ⟨before, by rw [after, stepped]; exact earlier, running⟩
      | ended ending final =>
          rw [stepped] at reached
          cases reached

/-- The run goes on for so many ops, or one of them ends it. -/
theorem after_or_ended (program : Program) (state : State) (count : Nat) :
    (∃ next, after program count state = some next) ∨
      ∃ fewer middle ending last, fewer < count ∧ after program fewer state = some middle ∧
        step program middle = .ended ending last := by
  induction count with
  | zero => exact .inl ⟨state, rfl⟩
  | succ count ih =>
      rcases ih with ⟨next, reached⟩ | ⟨fewer, middle, ending, last, less, reached, ended⟩
      · cases stepped : step program next with
        | running further => exact .inl ⟨further, after_succ_of_running reached stepped⟩
        | ended ending last => exact .inr ⟨count, next, ending, last, Nat.lt_succ_self _, reached, stepped⟩
      · exact .inr ⟨fewer, middle, ending, last, Nat.lt_succ_of_lt less, reached, ended⟩

theorem run_of_ended {ending : Ending} (reached : after program count state = some next)
    (ended : step program next = .ended ending last) :
    run program (count + 1) state = some (ending, last) := by
  rw [run_of_after reached, run, ended]

theorem ended_of_run {ending : Ending} (ended : run program fuel state = some (ending, last)) :
    ∃ count next, after program count state = some next ∧ step program next = .ended ending last := by
  induction fuel generalizing state with
  | zero => cases ended
  | succ fuel ih =>
      rw [run] at ended
      cases stepped : step program state with
      | running middle =>
          rw [stepped] at ended
          obtain ⟨count, next, reached, stepEnded⟩ := ih ended
          exact ⟨count + 1, next, by rw [after, stepped]; exact reached, stepEnded⟩
      | ended result final =>
          rw [stepped] at ended
          cases ended
          exact ⟨0, state, rfl, stepped⟩

theorem run_unique {other : Nat} {result another : Ending × State}
    (ends : run program fuel state = some result)
    (alsoEnds : run program other state = some another) : result = another := by
  induction fuel generalizing other state with
  | zero => cases ends
  | succ fuel ih =>
      cases other with
      | zero => cases alsoEnds
      | succ other =>
          rw [run] at ends alsoEnds
          cases stepped : step program state with
          | running middle =>
              rw [stepped] at ends alsoEnds
              exact ih ends alsoEnds
          | ended ending final =>
              rw [stepped] at ends alsoEnds
              exact Option.some.inj (ends.symm.trans alsoEnds)

/-- A run that stays on the tape ends only behind its last op. -/
theorem step_ended {ending : Ending} (stays : StaysOnTape program state)
    (reached : after program count state = some next)
    (ended : step program next = .ended ending last) :
    program.ops[next.index]? = none ∧ ending = .ofResult next.host.finish.1 ∧
      last = { next with host := next.host.finish.2 } := by
  have onTape := run_of_ended reached ended
  cases found : program.ops[next.index]? with
  | none =>
      simp only [step, found] at ended
      rcases finished : next.host.finish with ⟨result, host⟩
      rw [finished] at ended
      cases result <;> cases ended <;> exact ⟨rfl, rfl, rfl⟩
  | some op =>
      exfalso
      obtain ⟨opcode, operand⟩ := op
      cases touched : next.tape.get? next.pointer with
      | none =>
          cases opcode <;> simp only [step, found, touched, reduceCtorEq, Step.ended.injEq] at ended
          all_goals
            obtain ⟨rfl, rfl⟩ := ended
            exact stays _ _ _ _ onTape
      | some cell =>
          cases opcode <;> simp only [step, found, touched, reduceCtorEq] at ended
          split at ended <;> cases ended

end Tapewright.Native
