import Tapewright.Program.Brackets
import Tapewright.Proofs.Nesting

namespace Tapewright

/-! Balance and nesting.

Counting brackets and reading loops tell the same op lists apart.  Every list starts with ops
that nest; what stops the reading is the end of the list, a loop end with no loop open, or a
loop start that is never closed, and resolution answers accordingly.
-/

section Counting

variable {op first last : Op} {ops left right inner : List Op}

@[simp] theorem starts_append : starts (left ++ right) = starts left + starts right :=
  List.countP_append

@[simp] theorem ends_append : ends (left ++ right) = ends left + ends right :=
  List.countP_append

theorem starts_cons : starts (op :: ops) = starts [op] + starts ops :=
  @starts_append [op] ops

theorem ends_cons : ends (op :: ops) = ends [op] + ends ops :=
  @ends_append [op] ops

theorem counts_plain (plain : op.IsPlain) : starts [op] = 0 ∧ ends [op] = 0 := by
  simp [starts, ends, plain.1, plain.2]

theorem counts_start (start : op.opcode = .loopStart) : starts [op] = 1 ∧ ends [op] = 0 := by
  simp [starts, ends, start]

theorem counts_end (stop : op.opcode = .loopEnd) : starts [op] = 0 ∧ ends [op] = 1 := by
  simp [starts, ends, stop]

theorem balanced_nil : Balanced [] := by
  constructor
  · intro count
    simp [starts, ends]
  · rfl

theorem Balanced.append (first : Balanced left) (second : Balanced right) :
    Balanced (left ++ right) := by
  constructor
  · intro count
    have before := first.started count
    have after := second.started (count - left.length)
    rw [List.take_append, ends_append, starts_append]
    omega
  · rw [ends_append, starts_append, first.ended, second.ended]

theorem balanced_plain (plain : op.IsPlain) : Balanced [op] := by
  obtain ⟨noStart, noEnd⟩ := counts_plain plain
  constructor
  · intro count
    cases count with
    | zero => exact Nat.le_refl 0
    | succ count => simp [noEnd]
  · rw [noStart, noEnd]

theorem Balanced.loop (inside : Balanced inner) (start : first.opcode = .loopStart)
    (stop : last.opcode = .loopEnd) : Balanced (first :: (inner ++ [last])) := by
  obtain ⟨opened, notEnded⟩ := counts_start start
  obtain ⟨notOpened, closed⟩ := counts_end stop
  constructor
  · intro count
    cases count with
    | zero => exact Nat.le_refl 0
    | succ count =>
        have within := inside.started count
        have last_ : ends ([last].take (count - inner.length)) ≤ 1 := by
          rw [← closed]
          exact (List.take_sublist _ _).countP_le
        rw [List.take_succ_cons, List.take_append, ends_cons, starts_cons, ends_append, starts_append,
          opened, notEnded]
        omega
  · rw [ends_cons, starts_cons, ends_append, starts_append, inside.ended, opened, notEnded,
      notOpened, closed]
    omega

end Counting

theorem Nests.balanced {index : Nat} {ops : List Op} {tree : LoopTree}
    (nests : Nests index ops tree) : Balanced ops := by
  induction nests with
  | done => exact balanced_nil
  | act plain _ ih => exact (balanced_plain plain).append ih
  | loop start stop _ _ insideIH tailIH =>
      simpa using (insideIH.loop start stop).append tailIH

/-- Ops that read as a tree wherever they stand. -/
def Nested (ops : List Op) : Prop :=
  ∀ index, ∃ tree, Nests index ops tree

theorem nested_nil : Nested [] := by
  intro index
  exact ⟨.done, .done⟩

theorem nested_plain {op : Op} (plain : op.IsPlain) : Nested [op] := by
  intro index
  exact ⟨.act index op .done, .act plain .done⟩

theorem Nested.append {left right : List Op} (first : Nested left) (second : Nested right) :
    Nested (left ++ right) := by
  intro index
  obtain ⟨tree, nests⟩ := first index
  obtain ⟨other, otherNests⟩ := second (index + left.length)
  obtain ⟨joined, joinedNests, _⟩ := nests.append otherNests
  exact ⟨joined, joinedNests⟩

theorem Nested.loop {first last : Op} {inner : List Op} (inside : Nested inner)
    (start : first.opcode = .loopStart) (stop : last.opcode = .loopEnd) :
    Nested (first :: (inner ++ [last])) := by
  intro index
  obtain ⟨body, nests⟩ := inside (index + 1)
  exact ⟨.loop index body .done, .loop start stop nests .done⟩

/-- Ops that end only loops of their own.  They may leave loops open. -/
inductive Unclosed : List Op → Prop where
  | nested {ops : List Op} (nested : Nested ops) : Unclosed ops
  | opens {front rest : List Op} {first : Op} (before : Nested front)
      (start : first.opcode = .loopStart) (after : Unclosed rest) :
      Unclosed (front ++ first :: rest)

theorem Unclosed.prepend {front ops : List Op} (before : Nested front) (unclosed : Unclosed ops) :
    Unclosed (front ++ ops) := by
  cases unclosed with
  | nested nested => exact .nested (before.append nested)
  | opens between start after =>
      rw [← List.append_assoc]
      exact .opens (before.append between) start after

theorem Unclosed.ends_le {ops : List Op} (unclosed : Unclosed ops) : ends ops ≤ starts ops := by
  induction unclosed with
  | nested nested =>
      obtain ⟨tree, nests⟩ := nested 0
      exact Nat.le_of_eq nests.balanced.ended
  | opens before start _ ih =>
      obtain ⟨tree, nests⟩ := before 0
      have ended := nests.balanced.ended
      obtain ⟨opened, notEnded⟩ := counts_start start
      rw [ends_append, starts_append, ends_cons, starts_cons]
      omega

/-- The first op that nothing reads, if there is one, is a loop end. -/
theorem unclosed_or_closes (ops : List Op) :
    Unclosed ops ∨ ∃ front last rest, ops = front ++ last :: rest ∧ Nested front ∧
      last.opcode = .loopEnd := by
  -- By the number of ops: behind a loop the reading starts again.
  induction length : ops.length using Nat.strongRecOn generalizing ops with
  | _ length ih =>
      subst length
      -- What is read first does not matter to what follows.
      have after {loop rest : List Op} (before : Nested loop) (shorter : rest.length < ops.length) :
          Unclosed (loop ++ rest) ∨ ∃ front last others, loop ++ rest = front ++ last :: others ∧
            Nested front ∧ last.opcode = .loopEnd := by
        rcases ih rest.length shorter rest rfl with unclosed | ⟨front, last, others, rfl, nested, stop⟩
        · exact .inl (unclosed.prepend before)
        · exact .inr ⟨loop ++ front, last, others, by simp, before.append nested, stop⟩
      cases ops with
      | nil => exact .inl (.nested nested_nil)
      | cons op rest =>
          by_cases stop : op.opcode = .loopEnd
          · exact .inr ⟨[], op, rest, rfl, nested_nil, stop⟩
          by_cases start : op.opcode = .loopStart
          · rcases ih rest.length (by simp) rest rfl with
              unclosed | ⟨inner, last, others, rfl, nested, ends⟩
            · exact .inl (.opens nested_nil start unclosed)
            · simpa using after (nested.loop start ends) (by simp; omega)
          · exact after (nested_plain ⟨start, stop⟩) (by simp)

theorem balanced_iff_nested {ops : List Op} : Balanced ops ↔ Nested ops := by
  constructor
  · intro balanced
    rcases unclosed_or_closes ops with unclosed | ⟨front, last, rest, rfl, before, stop⟩
    · cases unclosed with
      | nested nested => exact nested
      | @opens front rest first before start after =>
          obtain ⟨tree, nests⟩ := before 0
          have ended := balanced.ended
          have open_ := after.ends_le
          obtain ⟨opened, notEnded⟩ := counts_start start
          rw [ends_append, starts_append, ends_cons, starts_cons, nests.balanced.ended] at ended
          omega
    · obtain ⟨tree, nests⟩ := before 0
      have started := balanced.started (front.length + 1)
      obtain ⟨notOpened, closed⟩ := counts_end stop
      rw [List.take_append, List.take_of_length_le (Nat.le_succ _), Nat.add_sub_cancel_left,
        List.take_succ_cons, List.take_zero, ends_append, starts_append, nests.balanced.ended] at started
      omega
  · intro nested
    obtain ⟨tree, nests⟩ := nested 0
    exact nests.balanced

theorem Nests.nested {index : Nat} {ops : List Op} {tree : LoopTree}
    (nests : Nests index ops tree) : Nested ops :=
  balanced_iff_nested.mp nests.balanced

theorem Nests.fits {index : Nat} {ops : List Op} {tree : LoopTree} (nests : Nests index ops tree)
    (small : index + ops.length ≤ 0x80000000) : tree.Fits := by
  induction nests with
  | done => trivial
  | act _ _ ih => exact ih (by simp only [List.length_cons] at small; omega)
  | loop _ _ inside _ insideIH tailIH =>
      simp only [List.length_cons, List.length_append] at small
      refine ⟨?_, insideIH (by omega), tailIH (by omega)⟩
      rw [inside.length_resolved]
      omega

namespace Program

theorem resolve_of_nested {ops : List Op} (nested : Nested ops) (small : ops.length ≤ 0x80000000) :
    ∃ program, resolve ops = .ok program := by
  obtain ⟨tree, nests⟩ := nested 0
  obtain ⟨program, resolved, _⟩ := resolve_of_nests nests (nests.fits (by omega))
  exact ⟨program, resolved⟩

/-- Resolution passes over ops that nest. -/
theorem resolveFrom_nested {front : List Op} (nested : Nested front) (before : Array Op)
    (small : before.size + front.length ≤ 0x80000000) :
    ∃ passed : Array Op, passed.size = before.size + front.length ∧ ∀ pending rest,
      resolveFrom before pending (front ++ rest) = resolveFrom passed pending rest := by
  obtain ⟨tree, nests⟩ := nested before.size
  refine ⟨before ++ tree.resolved.toArray, ?_, fun pending rest => ?_⟩
  · simp [nests.length_resolved]
  · exact resolveFrom_append nests (nests.fits small) before pending rest rfl

theorem resolve_closes {front rest : List Op} {last : Op} (before : Nested front)
    (stop : last.opcode = .loopEnd) (small : (front ++ last :: rest).length ≤ 0x80000000) :
    resolve (front ++ last :: rest) = .error (.unmatchedClose front.length) := by
  rw [List.length_append] at small
  obtain ⟨passed, size, same⟩ := resolveFrom_nested before #[] (by simp; omega)
  rw [resolve, same, resolveFrom, stop, size]
  simp [Except.map]

/-- The outermost loop that is open stays so. -/
theorem resolveFrom_unclosed {ops : List Op} (unclosed : Unclosed ops) (before : Array Op)
    (pending : List Nat) {index : Nat} (outermost : pending.getLast? = some index)
    (small : before.size + ops.length ≤ 0x80000000) :
    resolveFrom before pending ops = .error (.unmatchedOpen index) := by
  induction unclosed generalizing before pending with
  | @nested ops nested =>
      obtain ⟨passed, _, same⟩ := resolveFrom_nested nested before small
      have ended := same pending []
      rw [List.append_nil] at ended
      simp only [ended, resolveFrom, outermost]
  | @opens front rest first nested start _ ih =>
      simp only [List.length_append, List.length_cons] at small
      obtain ⟨passed, size, same⟩ := resolveFrom_nested nested before (by omega)
      rw [same, resolveFrom_start start]
      apply ih
      · rw [List.getLast?_cons, outermost]
        rfl
      · rw [Array.size_push, size]
        omega

theorem resolve_opens {front rest : List Op} {first : Op} (before : Nested front)
    (start : first.opcode = .loopStart) (after : Unclosed rest)
    (small : (front ++ first :: rest).length ≤ 0x80000000) :
    resolve (front ++ first :: rest) = .error (.unmatchedOpen front.length) := by
  simp only [List.length_append, List.length_cons] at small
  obtain ⟨passed, size, same⟩ := resolveFrom_nested before #[] (by simp; omega)
  have here : passed.size = front.length := by simpa using size
  rw [resolve, same, resolveFrom_start start, here,
    resolveFrom_unclosed after (passed.push first) [front.length] rfl (by rw [Array.size_push]; omega)]
  rfl

/-- What resolution says about ops whose indices all fit, and why. -/
inductive Verdict (ops : List Op) : Except BracketError Program → Prop where
  | resolved {program : Program} (nested : Nested ops) : Verdict ops (.ok program)
  | closes {front rest : List Op} {last : Op} (whole : ops = front ++ last :: rest)
      (before : Nested front) (stop : last.opcode = .loopEnd) :
      Verdict ops (.error (.unmatchedClose front.length))
  | opens {front rest : List Op} {first : Op} (whole : ops = front ++ first :: rest)
      (before : Nested front) (start : first.opcode = .loopStart) (after : Unclosed rest) :
      Verdict ops (.error (.unmatchedOpen front.length))

theorem resolve_verdict {ops : List Op} (small : ops.length ≤ 0x80000000) :
    Verdict ops (resolve ops) := by
  rcases unclosed_or_closes ops with unclosed | ⟨front, last, rest, rfl, before, stop⟩
  · cases unclosed with
    | nested nested =>
        obtain ⟨program, resolved⟩ := resolve_of_nested nested small
        rw [resolved]
        exact .resolved nested
    | opens before start after =>
        rw [resolve_opens before start after small]
        exact .opens rfl before start after
  · rw [resolve_closes before stop small]
    exact .closes rfl before stop

end Program

end Tapewright
