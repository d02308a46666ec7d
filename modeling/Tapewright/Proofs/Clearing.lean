import Tapewright.Proofs.Rounds

namespace Tapewright.Peephole

open Interpreter LoopTree

/-! Clear loops.

A loop around one unit step ends within 2^32 rounds and leaves zero, whatever the cell held,
so the assignment that replaces it does the same.  This holds off the tape too, apart from
the op index that a report names.
-/

variable {policy : BoundsPolicy} {place : Nat → Nat}

def cleared (ops : List Op) : List Op :=
  ops.foldl pushClearing []

/-- The second tree is the first one with some clear loops replaced, and with its ops at the
indices that `place` gives. -/
inductive Clears (place : Nat → Nat) : LoopTree → LoopTree → Prop where
  | done : Clears place .done .done
  | act {index : Nat} {op : Op} {next other : LoopTree} (tail : Clears place next other) :
      Clears place (.act index op next) (.act (place index) op other)
  | loop {index : Nat} {body next inner other : LoopTree} (inside : Clears place body inner)
      (tail : Clears place next other) :
      Clears place (.loop index body next) (.loop (place index) inner other)
  | clear {index inside : Nat} {step : Op} {next other : LoopTree} (unit : isUnitStep step)
      (tail : Clears place next other) :
      Clears place (.loop index (.act inside step .done) next)
        (.act (place index) ⟨.assign, 0⟩ other)

/-- Where the clearing pass puts the op at an index. -/
def clearedPlace (ops : List Op) (index : Nat) : Nat :=
  (cleared (ops.take index)).length

theorem cleared_append (front ops : List Op) :
    cleared (front ++ ops) = ops.foldl pushClearing (cleared front) :=
  List.foldl_append

theorem pushClearing_of_ne {stack : List Op} {op : Op} (other : op.opcode ≠ .loopEnd) :
    pushClearing stack op = op :: stack := by
  unfold pushClearing
  split
  · exact if_neg fun clear => other clear.1
  · rfl

theorem length_pushClearing_le (stack : List Op) (op : Op) :
    (pushClearing stack op).length ≤ stack.length + 1 := by
  unfold pushClearing
  split
  · split <;> simp only [List.length_cons] <;> omega
  · exact Nat.le_refl _

theorem length_cleared_le (ops : List Op) : (cleared ops).length ≤ ops.length := by
  suffices ∀ stack, (ops.foldl pushClearing stack).length ≤ stack.length + ops.length by
    simpa [cleared] using this []
  induction ops with
  | nil => intro stack; exact Nat.le_refl _
  | cons op rest ih =>
      intro stack
      have pushed := length_pushClearing_le stack op
      have later := ih (pushClearing stack op)
      simp only [List.foldl_cons, List.length_cons]
      omega

theorem pushClearing_clear {stack : List Op} {first last step : Op} (start : first.opcode = .loopStart)
    (stop : last.opcode = .loopEnd) (unit : isUnitStep step) :
    pushClearing (step :: first :: stack) last = ⟨.assign, 0⟩ :: stack := by
  simp [pushClearing, start, stop, unit]

theorem isPlain_of_isUnitStep {step : Op} (unit : isUnitStep step) : step.IsPlain := by
  obtain ⟨opcode, operand⟩ := step
  cases opcode <;> simp_all [isUnitStep, Op.IsPlain]

/-- Ops that nest do not end in a loop start and one step. -/
theorem not_clear_of_nests {index : Nat} {out front : List Op} {body : LoopTree} {before step : Op}
    (nests : Nests index out body) (order : out.reverse = step :: before :: front) :
    ¬ (before.opcode = .loopStart ∧ isUnitStep step) := by
  have whole : out = front.reverse ++ [before, step] := by
    rw [← List.reverse_reverse out, order]
    simp
  rintro ⟨start, unit⟩
  exact nests.start_ne_of_append whole (isPlain_of_isUnitStep unit) start

theorem pushClearing_keep {index : Nat} {out stack : List Op} {body : LoopTree} {first last : Op}
    (nests : Nests index out body) (start : first.opcode = .loopStart)
    (other : ∀ step, isUnitStep step → out ≠ [step]) :
    pushClearing (out.reverse ++ first :: stack) last = last :: (out.reverse ++ first :: stack) := by
  cases order : out.reverse with
  | nil =>
      have noUnit : ¬ isUnitStep first := fun unit => (isPlain_of_isUnitStep unit).1 start
      cases stack <;> simp [pushClearing, noUnit]
  | cons step earlier =>
      cases earlier with
      | nil =>
          have single : out = [step] := by
            rw [← List.reverse_reverse out, order]
            rfl
          have noUnit : ¬ isUnitStep step := fun unit => other step unit single
          simp [pushClearing, noUnit]
      | cons before front =>
          have noClear : ¬ (last.opcode = .loopEnd ∧ before.opcode = .loopStart ∧ isUnitStep step) :=
            fun clear => not_clear_of_nests nests order clear.2
          simp only [List.cons_append, pushClearing, if_neg noClear]

def relocateEnding (place : Nat → Nat) : Ending → Ending
  | .pointerOutOfBounds pointer index => .pointerOutOfBounds pointer (place index)
  | ending => ending

def relocate (place : Nat → Nat) : Progress → Progress
  | .ended ending last => .ended (relocateEnding place ending) last
  | progress => progress

theorem relocate_andThen (progress : Progress) (next : State → Progress) :
    relocate place (progress.andThen next) =
      (relocate place progress).andThen fun state => relocate place (next state) := by
  cases progress <;> rfl

theorem lost_relocate (state : State) (index : Nat) :
    (state.at (place index)).lost policy = relocateEnding place ((state.at index).lost policy) := by
  cases policy <;> rfl

theorem ofStep_relocate (op : Op) (state : State) (index : Nat) :
    Progress.ofStep (Interpreter.act policy op (state.at (place index))) =
      relocate place (Progress.ofStep (Interpreter.act policy op (state.at index))) := by
  rcases act_cases op state with ⟨next, goes⟩ | ⟨fault, last, faults⟩ | ⟨_, last, lost⟩
  · rw [goes, goes]
    rfl
  · rw [faults, faults]
    rfl
  · rw [lost, lost, lost_relocate]
    rfl

theorem isUnitStep_iff {step : Op} :
    isUnitStep step = true ↔ step.axis? = some .value ∧ step.operand = 1 := by
  obtain ⟨opcode, operand⟩ := step
  cases opcode <;> simp [isUnitStep, Op.axis?, Opcode.axis?]

def distance (step : Op) (cell : Int32) : Nat :=
  if step.opcode.isBackward then cell.toUInt32.toNat else (-cell).toUInt32.toNat

theorem distance_lt (step : Op) (cell : Int32) : distance step cell < 0x100000000 := by
  unfold distance
  split <;> exact UInt32.toNat_lt _

theorem distance_step {step : Op} {cell : Int32} (unit : isUnitStep step) (nonzero : cell ≠ 0) :
    distance step (cell + step.signedStep) + 1 = distance step cell := by
  obtain ⟨opcode, operand⟩ := step
  have positive : cell.toUInt32.toNat ≠ 0 := fun zero =>
    nonzero (toUInt32_eq_zero.mp (UInt32.toNat_inj.mp (zero.trans UInt32.toNat_zero.symm)))
  have bound := cell.toUInt32.toNat_lt
  obtain ⟨axis, rfl⟩ := isUnitStep_iff.mp unit
  have one : (1 : Int32).toUInt32.toNat = 1 := rfl
  cases opcode <;> simp only [Op.axis?, Opcode.axis?, Option.some.injEq, reduceCtorEq] at axis <;>
    simp only [distance, Op.signedStep, Opcode.isBackward, Bool.false_eq_true, ↓reduceIte,
      Int32.toUInt32_add, Int32.toUInt32_neg, UInt32.toNat_add, UInt32.toNat_neg, one,
      UInt32.size] <;>
    omega

theorem repeatBody_clear {step : Op} {state : State} {cell : Int32} {bound rounds : Nat}
    (index inside : Nat) (unit : isUnitStep step)
    (found : state.tape.get? state.pointer = some cell) (enough : distance step cell ≤ rounds) :
    repeatBody policy index (evalRounds policy bound (.act inside step .done)) rounds state =
      .completed { state with tape := state.tape.set state.pointer 0, index := 0 } := by
  induction rounds generalizing state cell with
  | zero =>
      have zero : cell = 0 := by
        apply Classical.byContradiction
        intro nonzero
        have := distance_step unit nonzero
        omega
      subst zero
      rw [repeatBody_zero 0 found, Tape.set_of_get? found]
      rfl
  | succ rounds ih =>
      by_cases zero : cell = 0
      · subst zero
        rw [repeatBody_zero _ found, Tape.set_of_get? found]
        rfl
      · have closer := distance_step unit zero
        have stepped : Interpreter.act policy step (state.at inside) = .running { state with
            tape := state.tape.set state.pointer (cell + step.signedStep), index := inside + 1 } :=
          act_value (isUnitStep_iff.mp unit).1 found
        have again := @ih { state with
            tape := state.tape.set state.pointer (cell + step.signedStep), index := 0 } _
          (Tape.get?_set_self found) (by omega)
        rw [repeatBody_succ rounds found zero, evalRounds, stepped]
        rw [Tape.set_set] at again
        exact again

theorem repeatBody_relocate {body inner : State → Progress}
    (same : ∀ state, inner state = relocate place (body state)) (index rounds : Nat) (state : State) :
    repeatBody policy (place index) inner rounds state =
      relocate place (repeatBody policy index body rounds state) := by
  induction rounds using Nat.strongRecOn generalizing state with
  | _ rounds ih =>
      cases found : state.tape.get? state.pointer with
      | none =>
          rw [repeatBody_lost rounds found, repeatBody_lost rounds found, lost_relocate]
          rfl
      | some cell =>
          by_cases zero : cell = 0
          · subst zero
            rw [repeatBody_zero rounds found, repeatBody_zero rounds found]
            rfl
          · cases rounds with
            | zero =>
                rw [repeatBody_none found zero, repeatBody_none found zero]
                rfl
            | succ rounds =>
                rw [repeatBody_succ rounds found zero, repeatBody_succ rounds found zero,
                  relocate_andThen, same]
                exact congrArg _ (funext (ih rounds (Nat.lt_succ_self rounds)))

/-- With as many rounds as clear loops may need, the two trees evaluate alike. -/
theorem Clears.evalRounds_eq {tree other : LoopTree} (clears : Clears place tree other)
    {rounds : Nat} (enough : 0x100000000 ≤ rounds) (state : State) :
    evalRounds policy rounds other state = relocate place (evalRounds policy rounds tree state) := by
  induction clears generalizing state with
  | done => rfl
  | act _ ih =>
      rw [evalRounds, evalRounds, relocate_andThen, ofStep_relocate]
      exact congrArg _ (funext ih)
  | loop _ _ insideIH tailIH =>
      rw [evalRounds, evalRounds, relocate_andThen, repeatBody_relocate insideIH]
      exact congrArg _ (funext tailIH)
  | @clear index inside step next other unit _ ih =>
      have replaced : Progress.ofStep (Interpreter.act policy ⟨.assign, 0⟩ (state.at (place index))) =
          relocate place
            (repeatBody policy index (evalRounds policy rounds (.act inside step .done)) rounds state) := by
        cases found : state.tape.get? state.pointer with
        | none =>
            rw [repeatBody_lost rounds found]
            simp only [Interpreter.act, State.tape_at, State.pointer_at, found, lost_relocate]
            rfl
        | some cell =>
            have near := distance_lt step cell
            rw [repeatBody_clear index inside unit found (by omega)]
            simp only [Interpreter.act, State.tape_at, State.pointer_at, found]
            rfl
      rw [evalRounds, evalRounds, relocate_andThen, replaced]
      exact congrArg _ (funext ih)

theorem Clears.unit_of_act {tree : LoopTree} {index : Nat} {step : Op} (unit : isUnitStep step)
    (clears : Clears place tree (.act index step .done)) : ∃ inside, tree = .act inside step .done := by
  cases clears with
  | act tail => cases tail; exact ⟨_, rfl⟩
  | clear _ _ => simp [isUnitStep] at unit

/-- The clearing pass turns ops that nest into ops that nest, and goes by their tree. -/
theorem exists_clears {index : Nat} {ops : List Op} {tree : LoopTree} (nests : Nests index ops tree)
    (before after : List Op) (place : before.length = index) :
    ∃ other out, Clears (clearedPlace (before ++ ops ++ after)) tree other ∧
      Nests (cleared before).length out other ∧
      cleared (before ++ ops) = out.reverse ++ cleared before ∧
      out.length ≤ ops.length ∧ (tree.Fits → other.Fits) := by
  induction nests generalizing before after with
  | done => exact ⟨.done, [], .done, .done, by simp, by simp, id⟩
  | @act index op rest next plain _ ih =>
      have pushed : cleared (before ++ [op]) = op :: cleared before := by
        rw [cleared_append]
        exact pushClearing_of_ne plain.2
      have here : clearedPlace (before ++ op :: rest ++ after) index = (cleared before).length := by
        simp [clearedPlace, ← place]
      obtain ⟨other, out, clears, outNests, stack, shorter, fits⟩ :=
        ih (before ++ [op]) after (by simp [place])
      refine ⟨.act (cleared before).length op other, op :: out, ?_, ?_, ?_, ?_, fits⟩
      · rw [← here]
        exact .act (by simpa using clears)
      · exact .act plain (by simpa [pushed] using outNests)
      · simpa [pushed] using stack
      · simpa using shorter
  | @loop index first last inner rest body next start stop inside _ insideIH tailIH =>
      have opened : cleared (before ++ [first]) = first :: cleared before := by
        rw [cleared_append]
        exact pushClearing_of_ne (by simp [start])
      have here : clearedPlace (before ++ first :: (inner ++ last :: rest) ++ after) index =
          (cleared before).length := by
        simp [clearedPlace, ← place]
      obtain ⟨innerTree, innerOut, innerClears, innerNests, innerStack, innerShorter, innerFits⟩ :=
        insideIH (before ++ [first]) (last :: rest ++ after) (by simp [place])
      obtain ⟨other, out, clears, outNests, stack, shorter, fits⟩ :=
        tailIH (before ++ first :: (inner ++ [last])) after (by simp [place]; omega)
      rw [opened] at innerNests innerStack
      have closed : cleared (before ++ first :: (inner ++ [last])) =
          pushClearing (innerOut.reverse ++ first :: cleared before) last := by
        rw [← innerStack]
        simpa using cleared_append (before ++ first :: inner) [last]
      have innerClears' : Clears (clearedPlace (before ++ first :: (inner ++ last :: rest) ++ after))
          body innerTree := by
        simpa using innerClears
      have clears' : Clears (clearedPlace (before ++ first :: (inner ++ last :: rest) ++ after))
          next other := by
        simpa using clears
      by_cases unit : ∃ step, isUnitStep step ∧ innerOut = [step]
      · obtain ⟨step, unit, rfl⟩ := unit
        have assigned : cleared (before ++ first :: (inner ++ [last])) =
            ⟨.assign, 0⟩ :: cleared before :=
          closed.trans (pushClearing_clear start stop unit)
        rw [assigned] at outNests stack
        obtain ⟨spot, rfl⟩ := (innerNests.of_singleton ▸ innerClears').unit_of_act unit
        refine ⟨.act (cleared before).length ⟨.assign, 0⟩ other, ⟨.assign, 0⟩ :: out, ?_, ?_, ?_, ?_,
          fun treeFits => fits treeFits.2.2⟩
        · rw [← here]
          exact .clear unit clears'
        · exact .act (by simp [Op.IsPlain]) outNests
        · simpa using stack
        · simp only [List.length_cons, List.length_append]
          omega
      · have kept : cleared (before ++ first :: (inner ++ [last])) =
            last :: (innerOut.reverse ++ first :: cleared before) :=
          closed.trans (pushClearing_keep innerNests start fun step isUnit same =>
            unit ⟨step, isUnit, same⟩)
        rw [kept] at outNests stack
        have tailPlace : (last :: (innerOut.reverse ++ first :: cleared before)).length =
            (cleared before).length + 1 + innerOut.length + 1 := by
          simp only [List.length_cons, List.length_append, List.length_reverse]
          omega
        refine ⟨.loop (cleared before).length innerTree other, first :: (innerOut ++ last :: out),
          ?_, ?_, ?_, ?_, ?_⟩
        · rw [← here]
          exact .loop innerClears' clears'
        · exact .loop start stop innerNests (tailPlace ▸ outNests)
        · simpa using stack
        · simp only [List.length_cons, List.length_append]
          omega
        · rintro ⟨bound, bodyFits, nextFits⟩
          refine ⟨?_, innerFits bodyFits, fits nextFits⟩
          have earlier := length_cleared_le before
          rw [inside.length_resolved] at bound
          rw [innerNests.length_resolved]
          omega

end Tapewright.Peephole
