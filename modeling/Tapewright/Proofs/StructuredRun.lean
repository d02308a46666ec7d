import Tapewright.Proofs.Nesting
import Tapewright.Proofs.Words

namespace Tapewright

/-! Runs by jumps and evaluations by structure.

A run goes from op to op by index.  Where a tree stands in the program, its evaluation and
the run proceed together: when the evaluation completes, the run has come to the index behind
the tree, when it ends so does the run, and as long as it is unfinished the run goes on.
-/

namespace Interpreter

variable {policy : BoundsPolicy} {program : Program}

def Ending.isOffTape : Ending → Bool
  | .pointerOutOfBounds _ _ => true
  | .crashed _ _ => true
  | _ => false

/-- However long the run goes on, it never touches a cell off the tape. -/
def StaysOnTape (policy : BoundsPolicy) (program : Program) (state : State) : Prop :=
  ∀ fuel ending last, run policy program fuel state = some (ending, last) → ending.isOffTape = false

def Terminates (policy : BoundsPolicy) (program : Program) (state : State) : Prop :=
  ∃ fuel ending last, run policy program fuel state = some (ending, last)

/-- The state after so many ops, if the run goes on that long. -/
def after (policy : BoundsPolicy) (program : Program) : Nat → State → Option State
  | 0, state => some state
  | count + 1, state =>
      match step policy program state with
      | .running next => after policy program count next
      | .ended _ _ => none

def State.at (state : State) (index : Nat) : State :=
  { state with index }

@[simp] theorem State.index_at (state : State) (index : Nat) : (state.at index).index = index := rfl

@[simp] theorem State.tape_at (state : State) (index : Nat) : (state.at index).tape = state.tape := rfl

@[simp] theorem State.pointer_at (state : State) (index : Nat) :
    (state.at index).pointer = state.pointer := rfl

theorem run_mono {fuel larger : Nat} {state : State} {result : Ending × State}
    (more : fuel ≤ larger) (ended : run policy program fuel state = some result) :
    run policy program larger state = some result := by
  induction fuel generalizing larger state with
  | zero => cases ended
  | succ fuel ih =>
      obtain ⟨larger, rfl⟩ : ∃ smaller, larger = smaller + 1 := ⟨larger - 1, by omega⟩
      rw [run] at ended ⊢
      split at ended
      · exact ih (by omega) ended
      · exact ended

theorem run_none_of_le {fuel smaller : Nat} {state : State} (less : smaller ≤ fuel)
    (going : run policy program fuel state = none) : run policy program smaller state = none := by
  cases result : run policy program smaller state with
  | none => rfl
  | some pair => rw [run_mono less result] at going; cases going

theorem run_unique {fuel other : Nat} {state : State} {result another : Ending × State}
    (ends : run policy program fuel state = some result)
    (alsoEnds : run policy program other state = some another) : result = another := by
  rcases Nat.le_total fuel other with less | less
  · rw [run_mono less ends] at alsoEnds
    exact Option.some.inj alsoEnds
  · rw [run_mono less alsoEnds] at ends
    exact (Option.some.inj ends).symm

theorem StaysOnTape.of_run {fuel : Nat} {state last : State} {ending : Ending}
    (ended : run policy program fuel state = some (ending, last))
    (onTape : ending.isOffTape = false) : StaysOnTape policy program state := by
  intro other ending' last' alsoEnded
  obtain ⟨rfl, _⟩ := Prod.mk.inj (run_unique ended alsoEnded)
  exact onTape

/-- So many steps lead from one state to another, and the run goes on from there. -/
def Advances (policy : BoundsPolicy) (program : Program) (count : Nat) (state next : State) : Prop :=
  ∀ fuel, run policy program (count + fuel) state = run policy program fuel next

theorem Advances.refl (state : State) : Advances policy program 0 state state := by
  intro fuel
  rw [Nat.zero_add]

theorem Advances.trans {count more : Nat} {state middle next : State}
    (first : Advances policy program count state middle)
    (second : Advances policy program more middle next) :
    Advances policy program (count + more) state next := by
  intro fuel
  rw [Nat.add_assoc, first, second]

theorem Advances.of_step {state next : State} (running : step policy program state = .running next) :
    Advances policy program 1 state next := by
  intro fuel
  rw [Nat.add_comm, run, running]

theorem Advances.run_none {count fuel : Nat} {state next : State}
    (advances : Advances policy program count state next)
    (going : run policy program fuel next = none) :
    run policy program (count + fuel) state = none := by
  rw [advances, going]

theorem step_of_plain {state : State} {op : Op} (found : program.ops[state.index]? = some op)
    (plain : op.IsPlain) : step policy program state = act policy op state := by
  obtain ⟨noStart, noEnd⟩ := plain
  simp only [step, found]

/-- What an op does, whatever the policy and wherever it stands: it leads on, it meets a
fault, or it misses the tape. -/
theorem act_cases (op : Op) (state : State) :
    (∃ next : State, ∀ policy index,
      act policy op (state.at index) = .running (next.at (index + 1))) ∨
    (∃ fault, ∃ last : State, ∀ policy index,
      act policy op (state.at index) = .ended (.faulted fault) (last.at index)) ∨
    (state.tape.get? state.pointer = none ∧ ∃ last : State, ∀ policy index,
      act policy op (state.at index) = .ended ((state.at index).lost policy) (last.at index)) := by
  obtain ⟨opcode, operand⟩ := op
  cases opcode with
  | shiftRight =>
      exact .inl ⟨{ state with pointer := state.pointer + Op.reach ⟨.shiftRight, operand⟩ },
        fun _ _ => rfl⟩
  | shiftLeft =>
      exact .inl ⟨{ state with pointer := state.pointer - Op.reach ⟨.shiftLeft, operand⟩ },
        fun _ _ => rfl⟩
  | loopStart | loopEnd => exact .inl ⟨state, fun _ _ => rfl⟩
  | increment | decrement | assign =>
      cases found : state.tape.get? state.pointer with
      | none => exact .inr (.inr ⟨rfl, state, fun _ _ => by simp only [act, State.at, found]⟩)
      | some cell =>
          exact .inl ⟨{ state with tape := state.tape.set state.pointer _ }, fun _ _ => by
            simp only [act, State.at, found]; rfl⟩
  | output =>
      cases found : state.tape.get? state.pointer with
      | none => exact .inr (.inr ⟨rfl, state, fun _ _ => by simp only [act, State.at, found]⟩)
      | some cell =>
          rcases written : state.output.putCell cell with ⟨outcome, output⟩
          cases outcome with
          | none => exact .inl ⟨{ state with output }, fun _ _ => by
              simp only [act, State.at, found, written]⟩
          | some fault => exact .inr (.inl ⟨fault, { state with output }, fun _ _ => by
              simp only [act, State.at, found, written]⟩)
  | input =>
      rcases read : state.input.getCell with ⟨outcome, input⟩
      cases outcome with
      | error fault => exact .inr (.inl ⟨fault, { state with input }, fun _ _ => by
          simp only [act, State.at, read]⟩)
      | ok value =>
          cases found : state.tape.get? state.pointer with
          | none => exact .inr (.inr ⟨rfl, { state with input }, fun _ _ => by
              simp only [act, State.at, read, found]⟩)
          | some cell =>
              exact .inl ⟨{ state with input, tape := state.tape.set state.pointer value },
                fun _ _ => by simp only [act, State.at, read, found]⟩

theorem act_index {op : Op} {state next : State} (running : act policy op state = .running next) :
    next.index = state.index + 1 := by
  rcases act_cases op state with ⟨after, goes⟩ | ⟨fault, last, faults⟩ | ⟨_, last, lost⟩
  · have same := (goes policy state.index).symm.trans running
    cases same
    rfl
  · cases (faults policy state.index).symm.trans running
  · cases (lost policy state.index).symm.trans running

theorem act_pointer {op : Op} (axis : op.axis? = some .pointer) (state : State) :
    act policy op state = .running { state with
      pointer := state.pointer + op.shift
      index := state.index + 1 } := by
  obtain ⟨opcode, operand⟩ := op
  cases opcode <;> simp [Op.axis?, Opcode.axis?] at axis <;>
    simp [act, Op.shift, Opcode.isBackward, UInt64.sub_eq_add_neg, Op.reach]

theorem act_value {op : Op} {state : State} {cell : Int32} (axis : op.axis? = some .value)
    (found : state.tape.get? state.pointer = some cell) :
    act policy op state = .running { state with
      tape := state.tape.set state.pointer (cell + op.signedStep)
      index := state.index + 1 } := by
  obtain ⟨opcode, operand⟩ := op
  cases opcode <;> simp [Op.axis?, Opcode.axis?] at axis <;>
    simp [act, found, Op.signedStep, Opcode.isBackward, Int32.sub_eq_add_neg]

theorem act_value_lost {op : Op} {state : State} (axis : op.axis? = some .value)
    (lost : state.tape.get? state.pointer = none) :
    act policy op state = .ended (state.lost policy) state := by
  obtain ⟨opcode, operand⟩ := op
  cases opcode <;> simp [Op.axis?, Opcode.axis?] at axis <;> simp [act, lost]

/-- How a run follows an evaluation, from one op index up to another.  While the evaluation is
unfinished the run has not ended within `least` steps. -/
def Follows (policy : BoundsPolicy) (program : Program) (least index stop : Nat) (state : State) :
    LoopTree.Progress → Prop
  | .completed after =>
      ∃ count, Advances policy program count (state.at index) (after.at stop)
  | .ended ending last =>
      ∃ fuel final, run policy program fuel (state.at index) = some (ending, final) ∧
        final.at 0 = last.at 0
  | .unfinished => run policy program least (state.at index) = none

theorem Follows.elsewhere {least index stop other : Nat} {state : State}
    {progress : LoopTree.Progress} (follows : Follows policy program least index stop state progress)
    (incomplete : ∀ after, progress ≠ .completed after) :
    Follows policy program least index other state progress := by
  cases progress with
  | completed after => exact absurd rfl (incomplete after)
  | ended ending last => exact follows
  | unfinished => exact follows

theorem Follows.after_steps {least most count index middle stop : Nat} {state between : State}
    {progress : LoopTree.Progress}
    (advances : Advances policy program count (state.at index) (between.at middle))
    (follows : Follows policy program least middle stop between progress)
    (bound : most ≤ count + least) :
    Follows policy program most index stop state progress := by
  cases progress with
  | completed after =>
      obtain ⟨more, rest⟩ := follows
      exact ⟨count + more, advances.trans rest⟩
  | ended ending last =>
      obtain ⟨fuel, final, ended, same⟩ := follows
      exact ⟨count + fuel, final, by rw [advances, ended], same⟩
  | unfinished => exact run_none_of_le bound (advances.run_none follows)

theorem isOffTape_lost (state : State) (policy : BoundsPolicy) :
    (state.lost policy).isOffTape = true := by
  cases policy <;> rfl

theorem Follows.of_ended {least index stop : Nat} {state last final : State} {ending : Ending}
    (ended : step policy program (state.at index) = .ended ending final)
    (same : final.at 0 = last.at 0) :
    Follows policy program least index stop state (.ended ending last) :=
  ⟨1, final, by rw [run, ended], same⟩

variable {index stop close : Nat} {state : State} {first last : Op}

theorem step_loopStart_lost (head : program.ops[index]? = some first)
    (start : first.opcode = .loopStart) (lost : state.tape.get? state.pointer = none) :
    step policy program (state.at index) = .ended ((state.at index).lost policy) (state.at index) := by
  simp only [step, State.index_at, head, start, State.tape_at, State.pointer_at, lost]

theorem step_loopStart_zero (head : program.ops[index]? = some first)
    (start : first.opcode = .loopStart) (forward : first.target = close)
    (zero : state.tape.get? state.pointer = some 0) :
    step policy program (state.at index) = .running (state.at (close + 1)) := by
  simp only [step, State.index_at, head, start, State.tape_at, State.pointer_at, zero, forward,
    ↓reduceIte]
  rfl

theorem step_loopStart_nonzero {cell : Int32} (head : program.ops[index]? = some first)
    (start : first.opcode = .loopStart) (found : state.tape.get? state.pointer = some cell)
    (nonzero : cell ≠ 0) :
    step policy program (state.at index) = .running (state.at (index + 1)) := by
  simp only [step, State.index_at, head, start, State.tape_at, State.pointer_at, found, nonzero,
    ↓reduceIte]
  rfl

theorem step_loopEnd (foot : program.ops[close]? = some last) (ends : last.opcode = .loopEnd)
    (back : last.target = index) :
    step policy program (state.at close) = .running (state.at index) := by
  simp only [step, State.index_at, foot, ends, back]
  rfl

end Interpreter

namespace LoopTree

open Interpreter

variable {policy : BoundsPolicy} {program : Program} {index stop : Nat} {tree : LoopTree}

/-- What an evaluation of a whole program comes to: once it has completed, one flush. -/
def Progress.result : Progress → Option (Ending × State)
  | .completed after => some (finish after)
  | .ended ending last => some (ending, last)
  | .unfinished => none

theorem finish_at (state : State) (index : Nat) :
    finish (state.at index) = ((finish state).1, (finish state).2.at index) := by
  simp only [finish, State.at]
  split <;> rfl

theorem run_of_result {least : Nat} {state last : State} {ending : Ending} {progress : Progress}
    (follows : Follows policy program least 0 program.size state progress)
    (result : progress.result = some (ending, last)) :
    ∃ fuel final, run policy program fuel (state.at 0) = some (ending, final) ∧
      final.at 0 = last.at 0 := by
  cases progress with
  | completed after =>
      obtain ⟨count, advances⟩ := follows
      have finished : finish after = (ending, last) := Option.some.inj result
      have outOfOps : program.ops[(after.at program.size).index]? = none :=
        Array.getElem?_eq_none (Nat.le_refl _)
      refine ⟨count + 1, last.at program.size, ?_, rfl⟩
      rw [advances, run, step, outOfOps, finish_at, finished]
  | ended ending' last' =>
      obtain ⟨rfl, rfl⟩ := Prod.mk.inj (Option.some.inj result)
      exact follows
  | unfinished => cases result

theorem result_of_run {least fuel : Nat} {state final : State} {ending : Ending} {progress : Progress}
    (follows : Follows policy program least 0 program.size state progress) (enough : fuel ≤ least)
    (ended : run policy program fuel (state.at 0) = some (ending, final)) :
    ∃ last, progress.result = some (ending, last) ∧ final.at 0 = last.at 0 := by
  cases result : progress.result with
  | none =>
      have unfinished : progress = .unfinished := by
        cases progress with
        | unfinished => rfl
        | completed after => cases result
        | ended other last => cases result
      subst unfinished
      have going : run policy program least (state.at 0) = none := follows
      rw [run_mono enough ended] at going
      cases going
  | some pair =>
      obtain ⟨other, last⟩ := pair
      obtain ⟨more, final', alsoEnded, same⟩ := run_of_result follows result
      obtain ⟨rfl, rfl⟩ := Prod.mk.inj (run_unique ended alsoEnded)
      exact ⟨last, rfl, same⟩

theorem evalFrom_follows (placed : tree.Placed program index stop) (fuel : Nat) (state : State) :
    Follows policy program fuel index stop state (evalFrom policy fuel tree state) := by
  induction fuel generalizing index stop tree state with
  | zero => rfl
  | succ fuel ih =>
      cases placed with
      | done => exact ⟨0, .refl _⟩
      | @act _ _ op next found plain tail =>
          have stepped : step policy program (state.at index) =
              Interpreter.act policy op (state.at index) := step_of_plain found plain
          cases result : Interpreter.act policy op { state with index } with
          | running after =>
              have here : step policy program (state.at index) = .running (after.at (index + 1)) := by
                rw [stepped, ← show after.index = index + 1 from act_index result]
                exact result
              simp only [evalFrom, result]
              exact (ih tail after).after_steps (.of_step here) (by omega)
          | ended ending last =>
              simp only [evalFrom, result]
              exact .of_ended (stepped.trans result) rfl
      | @loop _ close _ first last body next head start forward inside foot ends back tail =>
          simp only [evalFrom]
          cases found : state.tape.get? state.pointer with
          | none => exact .of_ended (step_loopStart_lost head start found) rfl
          | some cell =>
              by_cases zero : cell = 0
              · subst zero
                simp only [↓reduceIte]
                exact (ih tail state).after_steps
                  (.of_step (step_loopStart_zero head start forward found)) (by omega)
              · simp only [zero, ↓reduceIte]
                have entered : Advances policy program 1 (state.at index) (state.at (index + 1)) :=
                  .of_step (step_loopStart_nonzero head start found zero)
                have ran := ih inside state
                cases result : evalFrom policy fuel body state with
                | completed after =>
                    rw [result] at ran
                    obtain ⟨count, through⟩ := ran
                    have again := ih (.loop head start forward inside foot ends back tail) after
                    have around := (entered.trans through).trans (.of_step (step_loopEnd foot ends back))
                    exact again.after_steps around (by omega)
                | ended ending last =>
                    rw [result] at ran
                    exact (ran.elsewhere (by simp)).after_steps entered (by omega)
                | unfinished =>
                    rw [result] at ran
                    exact (ran.elsewhere (by simp)).after_steps entered (by omega)

end LoopTree

end Tapewright
