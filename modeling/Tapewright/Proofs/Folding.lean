import Tapewright.Proofs.Rounds

namespace Tapewright.Peephole

open Interpreter LoopTree

/-! Folded runs.

A run of steps and its folded form change the tape alike as long as every touched cell is on
the tape.  On the way the two data pointers may be multiples of 2^32 apart, because folding
adds up 32-bit operands.  At every touch they meet: a tape of at most 2^31 cells leaves only
one place for the pointer of the folded run.
-/

def IsStep (op : Op) : Prop :=
  op.axis?.isSome

theorem IsStep.pointer_or_value {op : Op} (step : IsStep op) :
    op.axis? = some .pointer ∨ op.axis? = some .value := by
  cases axis : op.axis? with
  | none => simp [IsStep, axis] at step
  | some which => cases which <;> simp

theorem IsStep.isPlain {op : Op} (step : IsStep op) : op.IsPlain := by
  obtain ⟨opcode, operand⟩ := op
  cases opcode <;> simp_all [IsStep, Op.axis?, Opcode.axis?, Op.IsPlain]

/-- The effect of a step, which has none off the tape. -/
def stepOne (state : State) (op : Op) : Option State :=
  match Interpreter.act .unchecked op state with
  | .running next => some (next.at 0)
  | .ended _ _ => none

def stepAll (ops : List Op) (state : State) : Option State :=
  ops.foldlM stepOne state

theorem stepAll_cons (op : Op) (ops : List Op) (state : State) :
    stepAll (op :: ops) state = (stepOne state op).bind (stepAll ops) := by
  simp only [stepAll, List.foldlM_cons]
  rfl

theorem stepAll_concat (ops : List Op) (op : Op) (state : State) :
    stepAll (ops ++ [op]) state = (stepAll ops state).bind fun next => stepOne next op := by
  simp [stepAll, List.foldlM_append]

theorem stepOne_pointer {op : Op} (axis : op.axis? = some .pointer) (state : State) :
    stepOne state op = some { state with pointer := state.pointer + op.shift, index := 0 } := by
  rw [stepOne, act_pointer axis]
  rfl

theorem stepOne_value {op : Op} (axis : op.axis? = some .value) (state : State) :
    stepOne state op = (state.tape.get? state.pointer).map fun cell => { state with
      tape := state.tape.set state.pointer (cell + op.signedStep)
      index := 0 } := by
  cases found : state.tape.get? state.pointer with
  | none => rw [stepOne, act_value_lost axis found, Option.map_none]
  | some cell =>
      rw [stepOne, act_value axis found]
      rfl

/-- The stack of folded ops, last one first. -/
def folded (ops : List Op) : List Op :=
  ops.foldl pushFolding []

theorem folded_concat (ops : List Op) (op : Op) :
    folded (ops ++ [op]) = pushFolding (folded ops) op := by
  simp [folded, List.foldl_append]

theorem pushFolding_of_ne {last op : Op} {below : List Op} (apart : last.axis? ≠ op.axis?) :
    pushFolding (last :: below) op = op :: last :: below :=
  if_neg fun merges => apart merges.2

theorem pushFolding_cases (stack : List Op) (op : Op) :
    (∃ last below, stack = last :: below ∧ last.axis? = op.axis?) ∨
      pushFolding stack op = op :: stack := by
  cases stack with
  | nil => exact .inr rfl
  | cons last below =>
      by_cases same : last.axis? = op.axis?
      · exact .inl ⟨last, below, rfl, same⟩
      · exact .inr (pushFolding_of_ne same)

def merged (last op : Op) : Op :=
  { last with operand := mergedOperand last op }

theorem axis?_merged (last op : Op) : (merged last op).axis? = last.axis? := rfl

theorem pushFolding_merge {op last : Op} {below : List Op} (step : IsStep op)
    (same : last.axis? = op.axis?) :
    pushFolding (last :: below) op =
      if mergedOperand last op = 0 then below
      else merged last op :: below :=
  if_pos ⟨step, same⟩

theorem signedStep_merged {last op : Op} (step : IsStep op) (same : last.axis? = op.axis?) :
    (merged last op).signedStep = last.signedStep + op.signedStep := by
  obtain ⟨lastCode, lastOperand⟩ := last
  obtain ⟨opcode, operand⟩ := op
  cases lastCode <;> cases opcode <;>
    simp_all [IsStep, Op.axis?, Opcode.axis?, merged, mergedOperand, Op.signedStep, Opcode.isBackward,
      Int32.sub_eq_add_neg, Int32.neg_add, Int32.neg_neg]

/-- Steps on a stack of which no two neighbours go along one axis. -/
def Alternates : List Op → Prop
  | [] => True
  | op :: below => IsStep op ∧ (∀ last ∈ below.head?, last.axis? ≠ op.axis?) ∧ Alternates below

theorem Alternates.isStep {stack : List Op} (alternates : Alternates stack) :
    ∀ op ∈ stack, IsStep op := by
  induction stack with
  | nil => simp
  | cons op below ih =>
      obtain ⟨step, _, rest⟩ := alternates
      simpa using ⟨step, ih rest⟩

theorem Alternates.pushFolding {stack : List Op} {op : Op} (alternates : Alternates stack)
    (step : IsStep op) : Alternates (pushFolding stack op) := by
  cases stack with
  | nil => exact ⟨step, by simp, trivial⟩
  | cons last below =>
      by_cases same : last.axis? = op.axis?
      · rw [pushFolding_merge step same]
        split
        · exact alternates.2.2
        · exact alternates
      · rw [pushFolding_of_ne same]
        exact ⟨step, by simpa using same, alternates⟩

/-- A state in which a segment of steps may start. -/
structure Home (state : State) : Prop where
  index : state.index = 0
  near : state.pointer.toNat < 0x80000000
  small : state.tape.size ≤ 0x80000000

theorem stepOne_keeps {op : Op} {state next : State} (step : IsStep op)
    (stepped : stepOne state op = some next) :
    next.index = 0 ∧ next.tape.size = state.tape.size := by
  rcases step.pointer_or_value with axis | axis
  · rw [stepOne_pointer axis] at stepped
    cases stepped
    exact ⟨rfl, rfl⟩
  · rw [stepOne_value axis] at stepped
    obtain ⟨cell, _, rfl⟩ := Option.map_eq_some_iff.mp stepped
    exact ⟨rfl, Tape.size_set ..⟩

theorem stepOne_zero {op : Op} {state next : State} (step : IsStep op) (zero : op.operand = 0)
    (index : state.index = 0) (stepped : stepOne state op = some next) : next = state := by
  obtain ⟨opcode, operand⟩ := op
  subst zero
  obtain ⟨_, pointer, tape, input, output⟩ := state
  subst index
  rcases step.pointer_or_value with axis | axis
  · have nowhere : (Op.mk opcode 0).shift = 0 := by
      rw [Op.shift, show (Op.mk opcode 0).reach = 0 from rfl]
      simp
    rw [stepOne_pointer axis, nowhere] at stepped
    simpa using stepped.symm
  · have nothing : (Op.mk opcode 0).signedStep = 0 := by
      simp [Op.signedStep]
    rw [stepOne_value axis, nothing] at stepped
    obtain ⟨cell, found, rfl⟩ := Option.map_eq_some_iff.mp stepped
    rw [Int32.add_zero, Tape.set_of_get? found]

theorem stepAll_keeps {ops : List Op} {state next : State} (steps : ∀ op ∈ ops, IsStep op)
    (index : state.index = 0) (stepped : stepAll ops state = some next) :
    next.index = 0 ∧ next.tape.size = state.tape.size := by
  induction ops generalizing state with
  | nil =>
      cases stepped
      exact ⟨index, rfl⟩
  | cons op rest ih =>
      rw [stepAll_cons] at stepped
      obtain ⟨middle, first, later⟩ := Option.bind_eq_some_iff.mp stepped
      obtain ⟨middleIndex, middleSize⟩ := stepOne_keeps (steps op (by simp)) first
      rw [← middleSize]
      exact ih (fun other member => steps other (by simp [member])) middleIndex later

section Tracking

variable {start : State} {stack : List Op} {state : State}

theorem stepAll_push {op : Op} {next : State} :
    stepAll (op :: stack).reverse start = some next ↔
      ∃ before, stepAll stack.reverse start = some before ∧ stepOne before op = some next := by
  rw [List.reverse_cons, stepAll_concat, Option.bind_eq_some_iff]

theorem Alternates.keeps (alternates : Alternates stack) (home : Home start)
    (reached : stepAll stack.reverse start = some state) :
    state.index = 0 ∧ state.tape.size = start.tape.size :=
  stepAll_keeps (fun op member => alternates.isStep op (List.mem_reverse.mp member)) home.index reached

theorem near_of_get? {cell : Int32} (small : state.tape.size ≤ 0x80000000)
    (found : state.tape.get? state.pointer = some cell) : state.pointer.toNat < 0x80000000 := by
  obtain ⟨inside, _⟩ := Tape.get?_eq_some_iff.mp found
  exact Nat.lt_of_lt_of_le inside small

theorem Alternates.near {op : Op} {below : List Op} (alternates : Alternates (op :: below))
    (home : Home start) (axis : op.axis? = some .value)
    (reached : stepAll (op :: below).reverse start = some state) : state.pointer.toNat < 0x80000000 := by
  obtain ⟨before, earlier, stepped⟩ := stepAll_push.mp reached
  have size := (alternates.2.2.keeps home earlier).2
  rw [stepOne_value axis] at stepped
  obtain ⟨cell, found, rfl⟩ := Option.map_eq_some_iff.mp stepped
  have close : before.pointer.toNat < 0x80000000 := near_of_get? (size ▸ home.small) found
  exact close

/-- Alternating steps can come to only one of the positions that agree in their low half. -/
theorem Alternates.settle (alternates : Alternates stack) (home : Home start)
    (reached : stepAll stack.reverse start = some state) {place : UInt64}
    (near : place.toNat < 0x80000000) (same : state.pointer.toUInt32 = place.toUInt32) :
    state.pointer = place := by
  cases stack with
  | nil =>
      cases reached
      exact eq_of_toUInt32_eq (Nat.lt_trans home.near (by decide)) (Nat.lt_trans near (by decide)) same
  | cons op below =>
      rcases alternates.1.pointer_or_value with axis | axis
      · obtain ⟨before, earlier, stepped⟩ := stepAll_push.mp reached
        have origin : before.pointer.toNat < 0x80000000 := by
          cases below with
          | nil =>
              cases earlier
              exact home.near
          | cons last rest =>
              have other : last.axis? ≠ some .pointer := axis ▸ alternates.2.1 last rfl
              exact alternates.2.2.near home
                (alternates.2.2.1.pointer_or_value.resolve_left other) earlier
        rw [stepOne_pointer axis] at stepped
        cases stepped
        exact Op.add_shift_of_toUInt32 origin near same
      · have close := alternates.near home axis reached
        exact eq_of_toUInt32_eq (Nat.lt_trans close (by decide)) (Nat.lt_trans near (by decide)) same

/-- Two states that differ at most in the upper half of the pointer. -/
structure Congruent (state other : State) : Prop where
  rest : other = { state with pointer := other.pointer }
  low : other.pointer.toUInt32 = state.pointer.toUInt32

/-- The ops on the stack lead from the start to the state, up to the upper half of the
pointer. -/
structure Tracks (start : State) (stack : List Op) (state : State) : Prop where
  alternates : Alternates stack
  reached : ∃ other, stepAll stack.reverse start = some other ∧ Congruent state other

theorem Tracks.eq_of_near (tracks : Tracks start stack state) (home : Home start)
    (near : state.pointer.toNat < 0x80000000) : stepAll stack.reverse start = some state := by
  obtain ⟨alternates, other, reached, rest, low⟩ := tracks
  rw [alternates.settle home reached near low] at rest
  rw [reached, rest]

theorem Tracks.small (tracks : Tracks start stack state) (home : Home start) :
    state.tape.size ≤ 0x80000000 := by
  obtain ⟨alternates, other, reached, rest, _⟩ := tracks
  have size := (alternates.keeps home reached).2
  rw [rest] at size
  exact size ▸ home.small

theorem Tracks.index (tracks : Tracks start stack state) (home : Home start) : state.index = 0 := by
  obtain ⟨alternates, other, reached, rest, _⟩ := tracks
  have index := (alternates.keeps home reached).1
  rwa [rest] at index

theorem stepAll_merge {last op : Op} {below : List Op} {before next : State}
    (alternates : Alternates (last :: below)) (home : Home start) (step : IsStep op)
    (same : last.axis? = op.axis?) (earlier : stepAll below.reverse start = some before)
    (stepped : stepOne before (merged last op) = some next) :
    stepAll (pushFolding (last :: below) op).reverse start = some next := by
  rw [pushFolding_merge step same]
  split
  · rename_i zero
    have index := (alternates.2.2.keeps home earlier).1
    have lastStep : IsStep (merged last op) := alternates.1
    rw [earlier, stepOne_zero lastStep zero index stepped]
  · exact stepAll_push.mpr ⟨before, earlier, stepped⟩

theorem Tracks.pointer {op : Op} (tracks : Tracks start stack state) (home : Home start)
    (axis : op.axis? = some .pointer) :
    Tracks start (pushFolding stack op)
      { state with pointer := state.pointer + op.shift, index := 0 } := by
  have step : IsStep op := by simp [IsStep, axis]
  obtain ⟨alternates, other, reached, rest, low⟩ := tracks
  refine ⟨alternates.pushFolding step, ?_⟩
  rcases pushFolding_cases stack op with ⟨last, below, rfl, same⟩ | pushed
  · obtain ⟨before, earlier, stepped⟩ := stepAll_push.mp reached
    rw [stepOne_pointer (same.trans axis)] at stepped
    obtain rfl := Option.some.inj stepped
    refine ⟨_, stepAll_merge alternates home step same earlier
      (stepOne_pointer ((axis?_merged last op).trans (same.trans axis)) before), ?_, ?_⟩
    · have fields := State.mk.inj rest
      simp only at fields
      simp only [fields]
    · simp only [UInt64.toUInt32_add, Op.toUInt32_shift, signedStep_merged step same,
        Int32.toUInt32_add, ← low, UInt32.add_assoc]
  · rw [pushed]
    refine ⟨_, stepAll_push.mpr ⟨other, reached, stepOne_pointer axis other⟩, by rw [rest], ?_⟩
    simp only [UInt64.toUInt32_add, low]

theorem Tracks.value {op : Op} {next : State} (tracks : Tracks start stack state)
    (home : Home start) (axis : op.axis? = some .value) (stepped : stepOne state op = some next) :
    Tracks start (pushFolding stack op) next := by
  have step : IsStep op := by simp [IsStep, axis]
  refine ⟨tracks.alternates.pushFolding step, next, ?_, rfl, rfl⟩
  have taken := stepped
  rw [stepOne_value axis] at taken
  obtain ⟨cell, found, rfl⟩ := Option.map_eq_some_iff.mp taken
  have reached := tracks.eq_of_near home (near_of_get? (tracks.small home) found)
  rcases pushFolding_cases stack op with ⟨last, below, rfl, same⟩ | pushed
  · obtain ⟨before, earlier, last_⟩ := stepAll_push.mp reached
    rw [stepOne_value (same.trans axis)] at last_
    obtain ⟨first, firstFound, rfl⟩ := Option.map_eq_some_iff.mp last_
    apply stepAll_merge tracks.alternates home step same earlier
    have changed : cell = first + last.signedStep := by
      rw [Tape.get?_set_self firstFound] at found
      exact (Option.some.inj found).symm
    rw [stepOne_value ((axis?_merged last op).trans (same.trans axis)), firstFound,
      signedStep_merged step same, changed, Tape.set_set, Int32.add_assoc]
    rfl
  · rw [pushed]
    exact stepAll_push.mpr ⟨state, reached, stepped⟩

theorem Tracks.stepAll {ops : List Op} {last : State} (tracks : Tracks start stack state)
    (home : Home start) (steps : ∀ op ∈ ops, IsStep op) (ran : stepAll ops state = some last) :
    Tracks start (ops.foldl Peephole.pushFolding stack) last := by
  induction ops generalizing stack state with
  | nil =>
      cases ran
      exact tracks
  | cons op rest ih =>
      rw [stepAll_cons] at ran
      obtain ⟨next, stepped, later⟩ := Option.bind_eq_some_iff.mp ran
      have pushed : Tracks start (Peephole.pushFolding stack op) next := by
        rcases (steps op (by simp)).pointer_or_value with axis | axis
        · rw [stepOne_pointer axis] at stepped
          obtain rfl := Option.some.inj stepped
          exact tracks.pointer home axis
        · exact tracks.value home axis stepped
      exact ih pushed (fun other member => steps other (by simp [member])) later

end Tracking

theorem tracks_folded {start last : State} {ops : List Op} (home : Home start)
    (steps : ∀ op ∈ ops, IsStep op) (ran : stepAll ops start = some last) :
    Tracks start (folded ops) last :=
  Tracks.stepAll ⟨trivial, start, rfl, rfl, rfl⟩ home steps ran

end Tapewright.Peephole
