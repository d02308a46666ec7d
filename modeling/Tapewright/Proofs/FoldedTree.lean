import Tapewright.Proofs.Folding

namespace Tapewright.Peephole

open Interpreter LoopTree

/-! Folding along the tree.

Folding leaves loops and all other ops where they are and replaces the segments of steps
between them.  Evaluations of the two trees stay together: inside a segment the pointers may
drift apart, and the first touch behind it brings them together again.
-/

def acts (index : Nat) : List Op → LoopTree → LoopTree
  | [], next => next
  | op :: rest, next => .act index op (acts (index + 1) rest next)

theorem acts_concat (index : Nat) (ops : List Op) (op : Op) (next : LoopTree) :
    acts index (ops ++ [op]) next = acts index ops (.act (index + ops.length) op next) := by
  induction ops generalizing index with
  | nil => rfl
  | cons first rest ih =>
      simp only [List.cons_append, acts, ih, List.length_cons, Nat.add_assoc, Nat.add_comm 1]

theorem fits_acts (index : Nat) (ops : List Op) (next : LoopTree) :
    (acts index ops next).Fits ↔ next.Fits := by
  induction ops generalizing index with
  | nil => rfl
  | cons op rest ih => exact ih (index + 1)

theorem Nests.acts {index : Nat} {ops rest : List Op} {next : LoopTree}
    (steps : ∀ op ∈ ops, IsStep op) (nests : Nests (index + ops.length) rest next) :
    Nests index (ops ++ rest) (acts index ops next) := by
  induction ops generalizing index with
  | nil => exact nests
  | cons op ops ih =>
      refine .act (steps op (by simp)).isPlain (ih (fun other member => steps other (by simp [member])) ?_)
      simpa only [List.length_cons, Nat.add_assoc, Nat.add_comm 1] using nests

section Evaluation

variable {policy : BoundsPolicy} {rounds : Nat} {state : State} {ops : List Op} {next : LoopTree}

theorem evalRounds_step {op : Op} {after : State} (step : IsStep op) (index : Nat)
    (stepped : stepOne state op = some after) :
    evalRounds policy rounds (.act index op next) state = evalRounds policy rounds next after := by
  rcases step.pointer_or_value with axis | axis
  · rw [stepOne_pointer axis] at stepped
    obtain rfl := Option.some.inj stepped
    rw [evalRounds, act_pointer axis]
    rfl
  · rw [stepOne_value axis] at stepped
    obtain ⟨cell, found, rfl⟩ := Option.map_eq_some_iff.mp stepped
    have here : (state.at index).tape.get? (state.at index).pointer = some cell := found
    rw [evalRounds, act_value axis here]
    rfl

theorem evalRounds_step_lost {op : Op} (step : IsStep op) (index : Nat)
    (lost : stepOne state op = none) :
    ∃ ending last, evalRounds policy rounds (.act index op next) state = .ended ending last ∧
      ending.isOffTape = true := by
  rcases step.pointer_or_value with axis | axis
  · rw [stepOne_pointer axis] at lost
    cases lost
  · rw [stepOne_value axis] at lost
    have here : (state.at index).tape.get? (state.at index).pointer = none :=
      Option.map_eq_none_iff.mp lost
    rw [evalRounds, act_value_lost axis here]
    exact ⟨_, _, rfl, isOffTape_lost _ _⟩

theorem evalRounds_acts {after : State} (steps : ∀ op ∈ ops, IsStep op) (index : Nat)
    (ran : stepAll ops state = some after) :
    evalRounds policy rounds (acts index ops next) state = evalRounds policy rounds next after := by
  induction ops generalizing index state with
  | nil =>
      cases ran
      rfl
  | cons op rest ih =>
      rw [stepAll_cons] at ran
      obtain ⟨middle, stepped, later⟩ := Option.bind_eq_some_iff.mp ran
      rw [acts, evalRounds_step (steps op (by simp)) index stepped]
      exact ih (fun other member => steps other (by simp [member])) (index + 1) later

theorem evalRounds_acts_lost (steps : ∀ op ∈ ops, IsStep op) (index : Nat)
    (lost : stepAll ops state = none) :
    ∃ ending last, evalRounds policy rounds (acts index ops next) state = .ended ending last ∧
      ending.isOffTape = true := by
  induction ops generalizing index state with
  | nil => cases lost
  | cons op rest ih =>
      have step := steps op (by simp)
      cases stepped : stepOne state op with
      | none => exact evalRounds_step_lost step index stepped
      | some middle =>
          rw [stepAll_cons, stepped] at lost
          rw [acts, evalRounds_step step index stepped]
          exact ih (fun other member => steps other (by simp [member])) (index + 1) lost

/-- What two evaluations have in common, the first of which may miss the tape.  Once it does,
nothing is asked of the other one. -/
inductive Matches (related : State → State → Prop) : Progress → Progress → Prop where
  | completed {state other : State} (same : related state other) :
      Matches related (.completed state) (.completed other)
  | faulted {fault : Fault} {state other : State}
      (same : other = { state with pointer := other.pointer }) :
      Matches related (.ended (.faulted fault) state) (.ended (.faulted fault) other)
  | unfinished : Matches related .unfinished .unfinished
  | lost {ending : Ending} {last : State} {other : Progress} (off : ending.isOffTape = true) :
      Matches related (.ended ending last) other

theorem Matches.andThen {before after : State → State → Prop} {left right : Progress}
    {leftNext rightNext : State → Progress} (first : Matches before left right)
    (second : ∀ state other, before state other → Matches after (leftNext state) (rightNext other)) :
    Matches after (left.andThen leftNext) (right.andThen rightNext) := by
  cases first with
  | completed same => exact second _ _ same
  | faulted same => exact .faulted same
  | unfinished => exact .unfinished
  | lost off => exact .lost off

/-- After a segment the pointers agree as soon as the first is near the tape. -/
structure Drift (state other : State) : Prop where
  rest : other = { state with pointer := other.pointer }
  index : state.index = 0
  small : state.tape.size ≤ 0x80000000
  settled : state.pointer.toNat < 0x80000000 → other = state

def Meets (state other : State) : Prop :=
  other = state ∧ Home state

theorem Meets.drift {state other : State} (meets : Meets state other) : Drift state other := by
  obtain ⟨rfl, home⟩ := meets
  exact ⟨rfl, home.index, home.small, fun _ => rfl⟩

theorem Drift.meets {state other : State} {cell : Int32} (drift : Drift state other)
    (found : state.tape.get? state.pointer = some cell) : Meets state other := by
  have near := near_of_get? drift.small found
  exact ⟨drift.settled near, drift.index, near, drift.small⟩

theorem act_keeps {op : Op} {after : State} (axis : op.axis? = none)
    (running : Interpreter.act policy op state = .running after) :
    after.pointer = state.pointer ∧ after.tape.size = state.tape.size := by
  obtain ⟨opcode, operand⟩ := op
  cases opcode with
  | shiftRight | shiftLeft | increment | decrement => simp [Op.axis?, Opcode.axis?] at axis
  | loopStart | loopEnd =>
      cases running
      exact ⟨rfl, rfl⟩
  | assign =>
      simp only [Interpreter.act] at running
      split at running <;> cases running
      exact ⟨rfl, Tape.size_set ..⟩
  | output =>
      simp only [Interpreter.act] at running
      split at running
      · cases running
      · split at running <;> cases running
        exact ⟨rfl, rfl⟩
  | input =>
      simp only [Interpreter.act] at running
      split at running
      · cases running
      · split at running <;> cases running
        exact ⟨rfl, Tape.size_set ..⟩

theorem ofStep_matches {op : Op} {other : State} (axis : op.axis? = none) (plain : op.IsPlain)
    (drift : Drift state other) (index place : Nat) :
    Matches Meets (.ofStep (Interpreter.act policy op (state.at index)))
      (.ofStep (Interpreter.act policy op (other.at place))) := by
  obtain ⟨opcode, operand⟩ := op
  cases found : state.tape.get? state.pointer with
  | none =>
      cases opcode with
      | shiftRight | shiftLeft | increment | decrement => simp [Op.axis?, Opcode.axis?] at axis
      | loopStart | loopEnd => simp [Op.IsPlain] at plain
      | output | assign =>
          simp only [Interpreter.act, State.at, found]
          exact .lost (isOffTape_lost _ _)
      | input =>
          have input : other.input = state.input := by rw [drift.rest]
          rcases read : state.input.getCell with ⟨outcome, rest⟩
          cases outcome with
          | error fault =>
              simp only [Interpreter.act, State.at, input, read]
              refine .faulted ?_
              rw [drift.rest]
              rfl
          | ok value =>
              simp only [Interpreter.act, State.at, read, found]
              exact .lost (isOffTape_lost _ _)
  | some cell =>
      obtain ⟨rfl, home⟩ := drift.meets found
      rcases act_cases ⟨opcode, operand⟩ other with
        ⟨after, goes⟩ | ⟨fault, last, faults⟩ | ⟨lost, _⟩
      · obtain ⟨pointer, size⟩ := act_keeps axis (goes policy index)
        rw [goes, goes]
        exact .completed ⟨rfl, rfl, pointer ▸ home.near, size ▸ home.small⟩
      · rw [faults, faults]
        exact .faulted rfl
      · rw [found] at lost
        cases lost

theorem repeatBody_matches {body inner : State → Progress}
    (inside : ∀ state, Home state → Matches Drift (body state) (inner state)) (index place : Nat)
    {other : State} (drift : Drift state other) :
    Matches Meets (repeatBody policy index body rounds state)
      (repeatBody policy place inner rounds other) := by
  induction rounds using Nat.strongRecOn generalizing state other with
  | _ rounds ih =>
      cases found : state.tape.get? state.pointer with
      | none =>
          rw [repeatBody_lost rounds found]
          exact .lost (isOffTape_lost _ _)
      | some cell =>
          obtain ⟨rfl, home⟩ := drift.meets found
          by_cases zero : cell = 0
          · subst zero
            rw [repeatBody_zero rounds found, repeatBody_zero rounds found]
            exact .completed ⟨rfl, rfl, home.near, home.small⟩
          · cases rounds with
            | zero =>
                rw [repeatBody_none found zero, repeatBody_none found zero]
                exact .unfinished
            | succ rounds =>
                rw [repeatBody_succ rounds found zero, repeatBody_succ rounds found zero]
                exact (inside _ home).andThen fun _ _ => ih rounds (Nat.lt_succ_self rounds)

/-- A segment of steps and its folded form come to states that only drift apart. -/
theorem evalRounds_segment {related : State → State → Prop} {otherNext : LoopTree}
    (steps : ∀ op ∈ ops, IsStep op) (home : Home state) (index place : Nat)
    (later : ∀ after other, Drift after other →
      Matches related (evalRounds policy rounds next after) (evalRounds policy rounds otherNext other)) :
    Matches related (evalRounds policy rounds (acts index ops next) state)
      (evalRounds policy rounds (acts place (foldRuns ops) otherNext) state) := by
  cases ran : stepAll ops state with
  | none =>
      obtain ⟨ending, last, lost, off⟩ := evalRounds_acts_lost steps index ran
      rw [lost]
      exact .lost off
  | some after =>
      have tracks := tracks_folded home steps ran
      obtain ⟨other, reached, congruent⟩ := tracks.reached
      have foldedSteps : ∀ op ∈ foldRuns ops, IsStep op := fun op member =>
        tracks.alternates.isStep op (List.mem_reverse.mp member)
      rw [evalRounds_acts steps index ran, evalRounds_acts foldedSteps place reached]
      refine later after other ⟨congruent.rest, tracks.index home, tracks.small home, fun near => ?_⟩
      have settled := tracks.eq_of_near home near
      rw [reached] at settled
      exact Option.some.inj settled

/-- The second tree is the first one folded: so are the segments of steps in front of each
loop, of each other op, and at the end. -/
inductive Folds : LoopTree → LoopTree → Prop where
  | finish {ops : List Op} {index place : Nat} (steps : ∀ op ∈ ops, IsStep op) :
      Folds (acts index ops .done) (acts place (foldRuns ops) .done)
  | act {ops : List Op} {index place here there : Nat} {op : Op} {next other : LoopTree}
      (steps : ∀ op ∈ ops, IsStep op) (axis : op.axis? = none) (plain : op.IsPlain)
      (tail : Folds next other) :
      Folds (acts index ops (.act here op next)) (acts place (foldRuns ops) (.act there op other))
  | loop {ops : List Op} {index place here there : Nat} {body inner next other : LoopTree}
      (steps : ∀ op ∈ ops, IsStep op) (inside : Folds body inner) (tail : Folds next other) :
      Folds (acts index ops (.loop here body next))
        (acts place (foldRuns ops) (.loop there inner other))

/-- A tree and its folded form evaluate alike as long as the first stays on the tape. -/
theorem Folds.evalRounds_matches {tree other : LoopTree} (folds : Folds tree other)
    (home : Home state) :
    Matches Drift (evalRounds policy rounds tree state) (evalRounds policy rounds other state) := by
  induction folds generalizing state with
  | @finish ops index place steps =>
      refine evalRounds_segment steps home index place fun after other drift => .completed ?_
      refine ⟨?_, rfl, drift.small, fun near => by rw [drift.settled near]⟩
      rw [drift.rest]
      rfl
  | act steps axis plain _ ih =>
      refine evalRounds_segment steps home _ _ fun after other drift => ?_
      refine (ofStep_matches axis plain drift _ _).andThen ?_
      rintro state _ ⟨rfl, home⟩
      exact ih home
  | loop steps _ _ insideIH tailIH =>
      refine evalRounds_segment steps home _ _ fun after other drift => ?_
      refine (repeatBody_matches (fun _ => insideIH) _ _ drift).andThen ?_
      rintro state _ ⟨rfl, home⟩
      exact tailIH home

end Evaluation

/-- What lies below a stack of ops does not matter to a step that cannot merge with it. -/
theorem pushFolding_append {stack below : List Op} {op : Op}
    (apart : ∀ last ∈ below.head?, op.axis?.isSome → last.axis? ≠ op.axis?) :
    pushFolding (stack ++ below) op = pushFolding stack op ++ below := by
  cases stack with
  | nil =>
      cases below with
      | nil => rfl
      | cons last below => exact if_neg fun merges => apart last rfl merges.1 merges.2
  | cons last rest =>
      simp only [List.cons_append, pushFolding]
      split
      · split <;> rfl
      · rfl

theorem axis?_start {op : Op} (start : op.opcode = .loopStart) : op.axis? = none := by
  rw [Op.axis?, start]
  rfl

theorem axis?_end {op : Op} (stop : op.opcode = .loopEnd) : op.axis? = none := by
  rw [Op.axis?, stop]
  rfl

theorem pushFolding_other {stack : List Op} {op : Op} (axis : op.axis? = none) :
    pushFolding stack op = op :: stack := by
  cases stack with
  | nil => rfl
  | cons last below => exact if_neg (by simp [axis])

theorem length_pushFolding_le (stack : List Op) (op : Op) :
    (pushFolding stack op).length ≤ stack.length + 1 := by
  unfold pushFolding
  split
  · exact Nat.le_refl _
  · split
    · split <;> simp only [List.length_cons] <;> omega
    · exact Nat.le_refl _

theorem length_folded_le (ops : List Op) : (folded ops).length ≤ ops.length := by
  suffices ∀ stack, (ops.foldl pushFolding stack).length ≤ stack.length + ops.length by
    simpa [folded] using this []
  induction ops with
  | nil => intro stack; exact Nat.le_refl _
  | cons op rest ih =>
      intro stack
      have pushed := length_pushFolding_le stack op
      have later := ih (pushFolding stack op)
      simp only [List.foldl_cons, List.length_cons]
      omega

theorem isStep_folded {ops : List Op} (steps : ∀ op ∈ ops, IsStep op) :
    ∀ op ∈ foldRuns ops, IsStep op := by
  suffices ∀ stack, Alternates stack → Alternates (ops.foldl pushFolding stack) from
    fun op member => (this [] trivial).isStep op (List.mem_reverse.mp member)
  induction ops with
  | nil => exact fun _ alternates => alternates
  | cons op rest ih =>
      exact fun stack alternates => ih (fun other member => steps other (by simp [member])) _
        (alternates.pushFolding (steps op (by simp)))

@[simp] theorem length_foldRuns (ops : List Op) : (foldRuns ops).length = (folded ops).length :=
  List.length_reverse

@[simp] theorem reverse_foldRuns (ops : List Op) : (foldRuns ops).reverse = folded ops :=
  List.reverse_reverse _

@[simp] theorem folded_nil : folded [] = [] := rfl

/-- The folding pass turns ops that nest into ops that nest, and goes by their tree.  The
steps pushed since the last other op are still a segment of their own on the stack. -/
theorem exists_folds {index : Nat} {ops : List Op} {tree : LoopTree} (nests : Nests index ops tree)
    {first : Nat} {segment below : List Op} (steps : ∀ op ∈ segment, IsStep op)
    (place : first + segment.length = index) (shift : below.length ≤ first)
    (apart : ∀ last ∈ below.head?, last.axis? = none) :
    ∃ other out, Folds (acts first segment tree) other ∧ Nests below.length out other ∧
      ops.foldl pushFolding (folded segment ++ below) = out.reverse ++ below ∧
      out.length ≤ segment.length + ops.length ∧ (tree.Fits → other.Fits) := by
  induction nests generalizing first segment below with
  | done =>
      refine ⟨acts below.length (foldRuns segment) .done, foldRuns segment, .finish steps, ?_, ?_, ?_, ?_⟩
      · simpa using Nests.acts (isStep_folded steps) .done
      · simp
      · simpa using length_folded_le segment
      · intro _
        exact (fits_acts ..).mpr trivial
  | @act index op rest next plain _ ih =>
      by_cases step : IsStep op
      · -- The segment goes on.
        have pushed : pushFolding (folded segment ++ below) op = folded (segment ++ [op]) ++ below := by
          rw [folded_concat]
          refine pushFolding_append fun last top isSome same => ?_
          rw [← same, apart last top] at isSome
          cases isSome
        obtain ⟨other, out, folds, outNests, stack, shorter, fits⟩ := @ih first (segment ++ [op]) below
          (by simpa [or_imp, forall_and] using ⟨steps, step⟩) (by simp [← place]; omega) shift apart
        refine ⟨other, out, ?_, outNests, ?_, ?_, fits⟩
        · rw [acts_concat, place] at folds
          exact folds
        · rw [List.foldl_cons, pushed, stack]
        · simp only [List.length_append, List.length_cons, List.length_nil] at shorter ⊢
          omega
      · have axis : op.axis? = none := by simpa [IsStep] using step
        have narrow := length_folded_le segment
        obtain ⟨other, out, folds, outNests, stack, shorter, fits⟩ :=
          @ih (index + 1) [] (op :: (folded segment ++ below)) (by simp) rfl
            (by simp; omega) (by simpa using axis)
        refine ⟨acts below.length (foldRuns segment) (.act (below.length + (foldRuns segment).length) op other),
          foldRuns segment ++ op :: out, .act steps axis plain folds, ?_, ?_, ?_, ?_⟩
        · refine Nests.acts (isStep_folded steps) (.act plain ?_)
          simpa [Nat.add_comm, Nat.add_left_comm] using outNests
        · rw [List.foldl_cons, pushFolding_other axis]
          simpa using stack
        · simp only [List.length_append, List.length_cons, length_foldRuns, List.length_nil] at shorter ⊢
          omega
        · exact fun treeFits => (fits_acts ..).mpr (fits treeFits)
  | @loop index start stop inner rest body next starts stops inside _ insideIH tailIH =>
      have startAxis : start.axis? = none := axis?_start starts
      have stopAxis : stop.axis? = none := axis?_end stops
      have narrow := length_folded_le segment
      obtain ⟨innerTree, innerOut, innerFolds, innerNests, innerStack, innerShorter, innerFits⟩ :=
        @insideIH (index + 1) [] (start :: (folded segment ++ below)) (by simp) rfl
          (by simp; omega) (by simpa using startAxis)
      simp only [List.length_nil, Nat.zero_add] at innerShorter
      obtain ⟨other, out, folds, outNests, stack, shorter, fits⟩ :=
        @tailIH (index + 1 + inner.length + 1) []
          (stop :: (innerOut.reverse ++ start :: (folded segment ++ below))) (by simp) rfl
          (by simp; omega) (by simpa using stopAxis)
      refine ⟨acts below.length (foldRuns segment)
          (.loop (below.length + (foldRuns segment).length) innerTree other),
        foldRuns segment ++ start :: (innerOut ++ stop :: out), .loop steps innerFolds folds,
        ?_, ?_, ?_, ?_⟩
      · refine Nests.acts (isStep_folded steps) (.loop starts stops ?_ ?_)
        · simpa [Nat.add_comm, Nat.add_left_comm] using innerNests
        · simpa [Nat.add_comm, Nat.add_left_comm, Nat.add_assoc] using outNests
      · simp only [folded_nil, List.nil_append] at innerStack stack
        rw [List.foldl_cons, pushFolding_other startAxis, List.foldl_append, innerStack,
          List.foldl_cons, pushFolding_other stopAxis, stack]
        simp
      · simp only [List.length_append, List.length_cons, length_foldRuns, List.length_nil] at shorter ⊢
        omega
      · rintro ⟨bound, bodyFits, nextFits⟩
        refine (fits_acts ..).mpr ⟨?_, innerFits bodyFits, fits nextFits⟩
        rw [inside.length_resolved] at bound
        rw [innerNests.length_resolved, length_foldRuns]
        omega

end Tapewright.Peephole
