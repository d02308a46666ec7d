import Mathlib.Data.List.Chain
import Mathlib.Data.List.Forall2
import Tapewright.Proofs.FoldedTree

namespace Tapewright.Peephole

/-! The normal form of runs.

Folding leaves no two neighbours that could still merge, so it has nothing to do a second time.
For ops without empty steps it computes a normal form: what is folded first makes no difference to
the axis and the net amount of any step.  Only the opcode of a run depends on the op it starts with.

Ops read by axis and amount are words.  On reduced words the steps along one axis act like the
numbers modulo 2^32, and this is why the order of merging does not matter.
-/

/-- Two ops that folding does not merge. -/
def Apart (op other : Op) : Prop :=
  IsStep op → other.axis? ≠ op.axis?

theorem Apart.symm {op other : Op} (apart : Apart op other) : Apart other op := by
  intro step same
  refine apart ?_ same.symm
  rwa [IsStep, same]

def NonzeroSteps (ops : List Op) : Prop :=
  ∀ op ∈ ops, IsStep op → op.operand ≠ 0

/-- Steps along the same axis by the same net amount, or else the same op. -/
inductive SameStep (op other : Op) : Prop where
  | step (step : IsStep op) (axis : other.axis? = op.axis?)
      (amount : other.signedStep = op.signedStep)
  | mark (axis : op.axis? = none) (same : other = op)

section Stack

variable {stack ops : List Op} {op : Op}

theorem pushFolding_of_apart (apart : ∀ last ∈ stack.head?, Apart op last) :
    pushFolding stack op = op :: stack :=
  @pushFolding_append [] stack op apart

theorem isChain_pushFolding (chain : stack.IsChain Apart) (op : Op) :
    (pushFolding stack op).IsChain Apart := by
  cases stack with
  | nil => exact .singleton op
  | cons last below =>
      obtain ⟨head, tail⟩ := List.isChain_cons.mp chain
      by_cases merges : op.axis?.isSome ∧ last.axis? = op.axis?
      · rw [pushFolding_merge merges.1 merges.2]
        split
        · exact tail
        · exact List.isChain_cons.mpr ⟨head, tail⟩
      · have apart : Apart op last := fun step same => merges ⟨step, same⟩
        rw [pushFolding_of_apart (by simpa using apart)]
        exact List.isChain_cons_cons.mpr ⟨apart, chain⟩

theorem isChain_folded (ops : List Op) : (folded ops).IsChain Apart := by
  induction ops using List.reverseRecOn with
  | nil => exact .nil
  | append_singleton ops op ih =>
      rw [folded_concat]
      exact isChain_pushFolding ih op

/-- A stack on which nothing can merge is what its ops fold to. -/
theorem folded_reverse (chain : stack.IsChain Apart) : folded stack.reverse = stack := by
  induction stack with
  | nil => rfl
  | cons op below ih =>
      obtain ⟨head, tail⟩ := List.isChain_cons.mp chain
      rw [List.reverse_cons, folded_concat, ih tail, pushFolding_of_apart head]

theorem folded_foldRuns (ops : List Op) : folded (foldRuns ops) = folded ops :=
  folded_reverse (isChain_folded ops)

theorem isChain_foldRuns (ops : List Op) : (foldRuns ops).IsChain Apart := by
  rw [foldRuns, List.isChain_reverse]
  exact (isChain_folded ops).imp fun _ _ => Apart.symm

theorem nonzero_pushFolding (stacked : NonzeroSteps stack) (nonzero : IsStep op → op.operand ≠ 0) :
    NonzeroSteps (pushFolding stack op) := by
  have pushed : NonzeroSteps (op :: stack) := by
    intro other member
    rcases List.mem_cons.mp member with rfl | below
    · exact nonzero
    · exact stacked other below
  cases stack with
  | nil => exact pushed
  | cons last below =>
      have rest : NonzeroSteps below := fun other member => stacked other (List.mem_cons_of_mem _ member)
      rw [pushFolding]
      split
      · split
        · exact rest
        · rename_i remains
          intro other member
          rcases List.mem_cons.mp member with rfl | inside
          · exact fun _ => remains
          · exact rest other inside
      · exact pushed

theorem nonzero_folded (nonzero : NonzeroSteps ops) : NonzeroSteps (folded ops) := by
  induction ops using List.reverseRecOn with
  | nil => simp [NonzeroSteps]
  | append_singleton ops op ih =>
      rw [folded_concat]
      exact nonzero_pushFolding (ih fun other member => nonzero other (by simp [member]))
        (nonzero op (by simp))

theorem nonzero_foldRuns (nonzero : NonzeroSteps ops) : NonzeroSteps (foldRuns ops) :=
  fun op member => nonzero_folded nonzero op (List.mem_reverse.mp member)

theorem nonzero_source (text : String) : NonzeroSteps (Source.ops text) := by
  intro op member _
  obtain ⟨command, _, rfl⟩ := List.mem_map.mp member
  simp [Command.op]

end Stack

/-- What folding looks at: the axis and the net amount of a step, and any other op as a whole. -/
inductive Letter where
  | step (axis : Axis) (amount : Int32)
  | mark (op : Op)

def letter (op : Op) : Letter :=
  match op.axis? with
  | some axis => .step axis op.signedStep
  | none => .mark op

namespace Letter

/-- Put a step on a word, unless it is empty. -/
def put (axis : Axis) (amount : Int32) (word : List Letter) : List Letter :=
  if amount = 0 then word else .step axis amount :: word

/-- Push a letter; a step is added to a step along the same axis before it. -/
def push (word : List Letter) : Letter → List Letter
  | .mark op => .mark op :: word
  | .step axis amount =>
      match word with
      | .step last total :: below =>
          if last = axis then put axis (total + amount) below else put axis amount word
      | _ => put axis amount word

/-- No step along the axis is on top. -/
def Free (axis : Axis) : List Letter → Prop
  | .step last _ :: _ => last ≠ axis
  | _ => True

/-- No step is empty, and no two neighbours are along one axis. -/
def Reduced : List Letter → Prop
  | [] => True
  | .mark _ :: below => Reduced below
  | .step axis amount :: below => amount ≠ 0 ∧ Free axis below ∧ Reduced below

section Words

variable {axis : Axis} {amount total : Int32} {word below letters : List Letter}

theorem push_of_free (free : Free axis word) : push word (.step axis amount) = put axis amount word := by
  match word, free with
  | [], _ => rfl
  | .mark _ :: _, _ => rfl
  | .step last _ :: _, different => exact if_neg different

theorem put_zero : put axis 0 word = word :=
  if_pos rfl

/-- Steps along one axis add up. -/
theorem push_put (free : Free axis below) :
    push (put axis total below) (.step axis amount) = put axis (total + amount) below := by
  by_cases zero : total = 0
  · rw [zero, put_zero, push_of_free free, Int32.zero_add]
  · rw [put, if_neg zero]
    exact if_pos rfl

/-- A reduced word has one step, perhaps an empty one, along an axis on top. -/
theorem Reduced.exists_put (reduced : Reduced word) (axis : Axis) :
    ∃ total below, word = put axis total below ∧ Free axis below ∧ Reduced below := by
  match word, reduced with
  | [], _ => exact ⟨0, [], put_zero.symm, trivial, trivial⟩
  | .mark op :: below, rest => exact ⟨0, .mark op :: below, put_zero.symm, trivial, rest⟩
  | .step last total :: below, ⟨nonzero, free, rest⟩ =>
      by_cases same : last = axis
      · subst same
        exact ⟨total, below, (if_neg nonzero).symm, free, rest⟩
      · exact ⟨0, .step last total :: below, put_zero.symm, same, nonzero, free, rest⟩

theorem Reduced.put (free : Free axis below) (reduced : Reduced below) : Reduced (put axis amount below) := by
  by_cases zero : amount = 0
  · rwa [zero, put_zero]
  · rw [Letter.put, if_neg zero]
    exact ⟨zero, free, reduced⟩

theorem Reduced.push (reduced : Reduced word) (letter : Letter) : Reduced (push word letter) := by
  cases letter with
  | mark op => exact reduced
  | step axis amount =>
      obtain ⟨total, below, rfl, free, rest⟩ := reduced.exists_put axis
      rw [push_put free]
      exact .put free rest

theorem Reduced.foldl_push (reduced : Reduced word) (letters : List Letter) :
    Reduced (letters.foldl Letter.push word) := by
  induction letters generalizing word with
  | nil => exact reduced
  | cons letter rest ih => exact ih (reduced.push letter)

theorem Reduced.push_zero (reduced : Reduced word) : Letter.push word (.step axis 0) = word := by
  obtain ⟨total, below, rfl, free, -⟩ := reduced.exists_put axis
  rw [push_put free, Int32.add_zero]

theorem Reduced.push_push (reduced : Reduced word) :
    Letter.push (Letter.push word (.step axis total)) (.step axis amount) =
      Letter.push word (.step axis (total + amount)) := by
  obtain ⟨first, below, rfl, free, -⟩ := reduced.exists_put axis
  rw [push_put free, push_put free, push_put free, Int32.add_assoc]

theorem Reduced.foldl_put (reduced : Reduced word) :
    (Letter.put axis amount below).reverse.foldl Letter.push word =
      Letter.push (below.reverse.foldl Letter.push word) (.step axis amount) := by
  by_cases zero : amount = 0
  · rw [zero, put_zero, (reduced.foldl_push _).push_zero]
  · rw [Letter.put, if_neg zero, List.reverse_cons, List.foldl_concat]

/-- Pushing a reduced word with one more letter pushed onto it, or pushing that letter last. -/
theorem Reduced.foldl_push_push (reduced : Reduced word) {upper : List Letter}
    (upperReduced : Reduced upper) (letter : Letter) :
    (Letter.push upper letter).reverse.foldl Letter.push word =
      Letter.push (upper.reverse.foldl Letter.push word) letter := by
  cases letter with
  | mark op => rw [Letter.push, List.reverse_cons, List.foldl_concat]
  | step axis amount =>
      obtain ⟨total, below, rfl, free, -⟩ := upperReduced.exists_put axis
      rw [push_put free, reduced.foldl_put, reduced.foldl_put, (reduced.foldl_push _).push_push]

/-- Letters may be reduced among themselves before they are pushed. -/
theorem Reduced.foldl_reduced (reduced : Reduced word) (letters : List Letter) :
    (letters.foldl Letter.push []).reverse.foldl Letter.push word = letters.foldl Letter.push word := by
  have empty : Reduced [] := trivial
  induction letters using List.reverseRecOn with
  | nil => rfl
  | append_singleton letters letter ih =>
      rw [List.foldl_concat, List.foldl_concat, reduced.foldl_push_push (empty.foldl_push _), ih]

end Words

end Letter

section Letters

variable {stack ops front back : List Op} {op last : Op}

theorem letter_of_axis {axis : Axis} (along : op.axis? = some axis) :
    letter op = .step axis op.signedStep := by
  rw [letter, along]

theorem signedStep_eq_zero : op.signedStep = 0 ↔ op.operand = 0 := by
  rw [Op.signedStep]
  split
  · constructor
    · intro zero
      rw [← @Int32.neg_neg op.operand, zero]
      rfl
    · intro zero
      rw [zero]
      rfl
  · rfl

theorem free_of_apart {axis : Axis} (along : op.axis? = some axis)
    (apart : ∀ last ∈ stack.head?, Apart op last) : Letter.Free axis (stack.map letter) := by
  cases stack with
  | nil => trivial
  | cons last below =>
      have different : last.axis? ≠ some axis := along ▸ apart last rfl (by simp [IsStep, along])
      cases other : last.axis? with
      | none =>
          rw [List.map_cons, letter, other]
          trivial
      | some lastAxis =>
          rw [List.map_cons, letter_of_axis other]
          rintro rfl
          exact different other

/-- Folding an op into a stack is pushing its letter. -/
theorem map_letter_pushFolding (nonzero : IsStep op → op.operand ≠ 0) (stack : List Op) :
    (pushFolding stack op).map letter = Letter.push (stack.map letter) (letter op) := by
  cases along : op.axis? with
  | none =>
      rw [pushFolding_other along, List.map_cons, letter, along]
      rfl
  | some axis =>
      have step : IsStep op := by simp [IsStep, along]
      have amount : op.signedStep ≠ 0 := fun zero => nonzero step (signedStep_eq_zero.mp zero)
      rw [letter_of_axis along]
      by_cases merges : ∃ last below, stack = last :: below ∧ last.axis? = op.axis?
      · obtain ⟨last, below, rfl, same⟩ := merges
        have sum := signedStep_merged step same
        have vanishes : mergedOperand last op = 0 ↔ last.signedStep + op.signedStep = 0 := by
          rw [← sum, signedStep_eq_zero]
          rfl
        rw [pushFolding_merge step same, List.map_cons, letter_of_axis (same.trans along)]
        simp only [Letter.push, Letter.put, ↓reduceIte, ← vanishes]
        split
        · rfl
        · rw [List.map_cons, letter_of_axis (((axis?_merged last op).trans same).trans along), sum]
      · have apart : ∀ last ∈ stack.head?, Apart op last := by
          intro last top _ same
          obtain ⟨below, rfl⟩ := List.head?_eq_some_iff.mp top
          exact merges ⟨last, below, rfl, same⟩
        rw [pushFolding_of_apart apart, Letter.push_of_free (free_of_apart along apart), Letter.put,
          if_neg amount, List.map_cons, letter_of_axis along]

theorem map_letter_foldl (nonzero : NonzeroSteps ops) (stack : List Op) :
    (ops.foldl pushFolding stack).map letter =
      (ops.map letter).foldl Letter.push (stack.map letter) := by
  induction ops generalizing stack with
  | nil => rfl
  | cons op rest ih =>
      rw [List.foldl_cons, ih (fun other member => nonzero other (List.mem_cons_of_mem _ member)),
        map_letter_pushFolding (nonzero op (List.mem_cons_self ..)), List.map_cons, List.foldl_cons]

theorem map_letter_folded (nonzero : NonzeroSteps ops) :
    (folded ops).map letter = (ops.map letter).foldl Letter.push [] :=
  map_letter_foldl nonzero []

theorem sameStep_of_letter {other : Op} (same : letter op = letter other) : SameStep op other := by
  cases along : op.axis? with
  | none =>
      cases otherAlong : other.axis? with
      | none =>
          simp only [letter, along, otherAlong, Letter.mark.injEq] at same
          exact .mark along same.symm
      | some axis => simp [letter, along, otherAlong] at same
  | some axis =>
      cases otherAlong : other.axis? with
      | none => simp [letter, along, otherAlong] at same
      | some otherAxis =>
          simp only [letter, along, otherAlong, Letter.step.injEq] at same
          refine .step (by simp [IsStep, along]) ?_ same.2.symm
          rw [along, otherAlong, same.1]

theorem forall₂_of_letters {left right : List Op} (same : left.map letter = right.map letter) :
    List.Forall₂ SameStep left.reverse right.reverse := by
  rw [← List.forall₂_eq_eq_eq, List.forall₂_map_left_iff, List.forall₂_map_right_iff] at same
  exact List.forall₂_reverse_iff.mpr (same.imp fun _ _ => sameStep_of_letter)

theorem foldRuns_append (front back : List Op) :
    foldRuns (front ++ back) = (back.foldl pushFolding (folded front)).reverse := by
  rw [foldRuns, List.foldl_append]
  rfl

/-- What follows may be folded before it is pushed. -/
theorem letters_foldl_foldRuns (nonzero : NonzeroSteps front) (alsoNonzero : NonzeroSteps back) :
    ((foldRuns back).foldl pushFolding (folded front)).map letter =
      (back.foldl pushFolding (folded front)).map letter := by
  have empty : Letter.Reduced [] := trivial
  rw [map_letter_foldl (nonzero_foldRuns alsoNonzero), map_letter_foldl alsoNonzero,
    map_letter_folded nonzero, foldRuns, List.map_reverse]
  have word := map_letter_folded alsoNonzero
  rw [folded] at word
  rw [word, (empty.foldl_push _).foldl_reduced]

end Letters

/-- Folding computes a normal form.  It leaves no two neighbours along one axis, and folding again
changes nothing.  Without empty steps in the input, as in every source text, there are none in the
result, and it makes no difference whether a first or a second part is folded beforehand: the
results agree op by op, apart from the opcode that a run of steps goes by. -/
theorem foldRuns_normal_form (front back : List Op) :
    ((foldRuns front).IsChain Apart ∧ foldRuns (foldRuns front) = foldRuns front) ∧
    (∀ text, NonzeroSteps (Source.ops text)) ∧
    (NonzeroSteps front → NonzeroSteps (foldRuns front)) ∧
    (NonzeroSteps front → NonzeroSteps back →
      List.Forall₂ SameStep (foldRuns (front ++ back)) (foldRuns (foldRuns front ++ back)) ∧
      List.Forall₂ SameStep (foldRuns (front ++ back)) (foldRuns (front ++ foldRuns back))) := by
  have again : foldRuns (foldRuns front) = foldRuns front :=
    congrArg List.reverse (folded_foldRuns front)
  refine ⟨⟨isChain_foldRuns front, again⟩, nonzero_source, nonzero_foldRuns, ?_⟩
  intro nonzero alsoNonzero
  rw [foldRuns_append, foldRuns_append, foldRuns_append, folded_foldRuns]
  exact ⟨forall₂_of_letters rfl,
    forall₂_of_letters (letters_foldl_foldRuns nonzero alsoNonzero).symm⟩

/-- The last four of `+-+--` fold to a decrement by two, which the first op then takes in. -/
theorem foldRuns_normal_form_other_opcode :
    foldRuns (Source.ops "+" ++ Source.ops "-+--") = [⟨.decrement, 1⟩] ∧
      foldRuns (Source.ops "+" ++ foldRuns (Source.ops "-+--")) = [⟨.increment, -1⟩] ∧
      List.Forall₂ SameStep [⟨.decrement, 1⟩] [⟨.increment, -1⟩] := by
  have whole : foldRuns (Source.ops "+" ++ Source.ops "-+--") = [⟨.decrement, 1⟩] := by decide
  have apart : foldRuns (Source.ops "+" ++ foldRuns (Source.ops "-+--")) = [⟨.increment, -1⟩] := by
    decide
  obtain ⟨-, nonzero, -, agrees⟩ := foldRuns_normal_form (Source.ops "+") (Source.ops "-+--")
  obtain ⟨-, same⟩ := agrees (nonzero "+") (nonzero "-+--")
  rw [whole, apart] at same
  exact ⟨whole, apart, same⟩

end Tapewright.Peephole
