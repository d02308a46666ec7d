import Tapewright.Proofs.StructuredRun

namespace Tapewright.LoopTree

open Interpreter

/-! Evaluation by rounds.

Here only the number of rounds of each loop is bounded, and everything else goes by the
structure of the tree.  Two trees with the same loops can then be compared at one and the same
bound, and a loop that is known to end within some number of rounds ends at every larger
bound.
-/

variable {policy : BoundsPolicy} {program : Program} {index stop : Nat} {tree : LoopTree}

def Progress.andThen (progress : Progress) (next : State → Progress) : Progress :=
  match progress with
  | .completed state => next state
  | .ended ending last => .ended ending last
  | .unfinished => .unfinished

/-- What an op leaves; a tree has no use for the index of a state. -/
def Progress.ofStep : Step → Progress
  | .running state => .completed (state.at 0)
  | .ended ending last => .ended ending (last.at 0)

/-- Test the current cell and run a body on it, over and over, for at most so many rounds. -/
def repeatBody (policy : BoundsPolicy) (index : Nat) (body : State → Progress) :
    Nat → State → Progress
  | rounds, state =>
      match state.tape.get? state.pointer with
      | none => .ended ((state.at index).lost policy) (state.at 0)
      | some cell =>
          if cell = 0 then
            .completed (state.at 0)
          else
            match rounds with
            | 0 => .unfinished
            | rounds + 1 => (body state).andThen (repeatBody policy index body rounds)

/-- Evaluate a tree; a loop that needs more rounds than the bound stays unfinished. -/
def evalRounds (policy : BoundsPolicy) (rounds : Nat) : LoopTree → State → Progress
  | .done, state => .completed (state.at 0)
  | .act index op next, state =>
      (Progress.ofStep (Interpreter.act policy op (state.at index))).andThen
        (evalRounds policy rounds next)
  | .loop index body next, state =>
      (repeatBody policy index (evalRounds policy rounds body) rounds state).andThen
        (evalRounds policy rounds next)

section repeatBody

variable {body : State → Progress} {state : State} {cell : Int32} (rounds : Nat)

theorem repeatBody_lost (lost : state.tape.get? state.pointer = none) :
    repeatBody policy index body rounds state =
      .ended ((state.at index).lost policy) (state.at 0) := by
  cases rounds <;> simp only [repeatBody, lost]

theorem repeatBody_zero (zero : state.tape.get? state.pointer = some 0) :
    repeatBody policy index body rounds state = .completed (state.at 0) := by
  cases rounds <;> simp only [repeatBody, zero, ↓reduceIte]

theorem repeatBody_none (found : state.tape.get? state.pointer = some cell) (nonzero : cell ≠ 0) :
    repeatBody policy index body 0 state = .unfinished := by
  simp only [repeatBody, found, nonzero, ↓reduceIte]

theorem repeatBody_succ (found : state.tape.get? state.pointer = some cell) (nonzero : cell ≠ 0) :
    repeatBody policy index body (rounds + 1) state =
      (body state).andThen (repeatBody policy index body rounds) := by
  simp only [repeatBody, found, nonzero, ↓reduceIte]

end repeatBody

theorem evalRounds_act {op : Op} {rounds : Nat} {state after : State} {next : LoopTree}
    (running : Interpreter.act policy op (state.at index) = .running after) :
    evalRounds policy rounds (.act index op next) state = evalRounds policy rounds next (after.at 0) := by
  rw [evalRounds, running]
  rfl

theorem Follows.andThen {least middle : Nat} {state : State} {progress : Progress}
    {next : State → Progress} (first : Follows policy program least index middle state progress)
    (second : ∀ after, progress = .completed after →
      Follows policy program least middle stop after (next after)) :
    Follows policy program least index stop state (progress.andThen next) := by
  cases progress with
  | completed after =>
      obtain ⟨count, advances⟩ := first
      exact (second after rfl).after_steps advances (Nat.le_add_left ..)
  | ended ending last => exact first
  | unfinished => exact first

theorem repeatBody_follows {close : Nat} {first last : Op} {body : State → Progress} {rounds bound : Nat}
    (head : program.ops[index]? = some first) (start : first.opcode = .loopStart)
    (forward : first.target = close) (foot : program.ops[close]? = some last)
    (ends : last.opcode = .loopEnd) (back : last.target = index)
    (inside : ∀ state, Follows policy program bound (index + 1) close state (body state))
    (within : rounds ≤ bound) (state : State) :
    Follows policy program rounds index (close + 1) state
      (repeatBody policy index body rounds state) := by
  induction rounds using Nat.strongRecOn generalizing state with
  | _ rounds ih =>
      cases found : state.tape.get? state.pointer with
      | none =>
          rw [repeatBody_lost rounds found]
          exact .of_ended (step_loopStart_lost head start found) rfl
      | some cell =>
          by_cases zero : cell = 0
          · subst zero
            rw [repeatBody_zero rounds found]
            exact ⟨1, .of_step (step_loopStart_zero head start forward found)⟩
          · cases rounds with
            | zero =>
                rw [repeatBody_none found zero]
                rfl
            | succ rounds =>
                rw [repeatBody_succ rounds found zero]
                have entered : Advances policy program 1 (state.at index) (state.at (index + 1)) :=
                  .of_step (step_loopStart_nonzero head start found zero)
                have ran := inside state
                cases result : body state with
                | completed after =>
                    rw [result] at ran
                    obtain ⟨count, through⟩ := ran
                    have around := (entered.trans through).trans (.of_step (step_loopEnd foot ends back))
                    exact (ih rounds (by omega) (by omega) after).after_steps around (by omega)
                | ended ending last =>
                    rw [result] at ran
                    exact (ran.elsewhere (by simp)).after_steps entered (by omega)
                | unfinished =>
                    rw [result] at ran
                    exact (ran.elsewhere (by simp)).after_steps entered (by omega)

theorem evalRounds_follows (placed : tree.Placed program index stop) (rounds : Nat) (state : State) :
    Follows policy program rounds index stop state (evalRounds policy rounds tree state) := by
  induction placed generalizing state with
  | done => exact ⟨0, .refl _⟩
  | @act index stop op next found plain tail ih =>
      have stepped : step policy program (state.at index) =
          Interpreter.act policy op (state.at index) := step_of_plain found plain
      rw [evalRounds]
      cases result : Interpreter.act policy op (state.at index) with
      | running after =>
          have here : step policy program (state.at index) = .running (after.at (index + 1)) := by
            rw [stepped, ← show after.index = index + 1 from act_index result]
            exact result
          exact (ih (after.at 0)).after_steps (.of_step here) (by omega)
      | ended ending last => exact .of_ended (stepped.trans result) rfl
  | loop head start forward inside foot ends back tail insideIH tailIH =>
      have looped := repeatBody_follows head start forward foot ends back insideIH
        (Nat.le_refl rounds) state
      exact Follows.andThen looped fun after _ => tailIH after

end Tapewright.LoopTree
