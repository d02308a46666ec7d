import Tapewright.Proofs.Balance
import Tapewright.Proofs.Clearing
import Tapewright.Proofs.FoldedTree

namespace Tapewright.Peephole

open Program

/-! Rejected programs stay rejected.

The peephole passes never touch a bracket that resolution complains about: an unmatched loop
end is no end of a clear loop, and nothing behind an unclosed loop start reaches it.  What stands
in front of such a bracket is simplified as if the list ended there.
-/

variable {front ops rest : List Op} {first last : Op}

section Clearing

theorem cleared_nested (nested : Nested ops) (before : List Op) :
    ∃ out, Nested out ∧ cleared (before ++ ops) = out.reverse ++ cleared before := by
  obtain ⟨tree, nests⟩ := nested before.length
  obtain ⟨other, out, _, outNests, stack, _⟩ := exists_clears nests before [] rfl
  exact ⟨out, outNests.nested, stack⟩

theorem cleared_start (start : first.opcode = .loopStart) (before : List Op) :
    cleared (before ++ [first]) = first :: cleared before := by
  rw [cleared_append]
  exact pushClearing_of_ne (by simp [start])

theorem cleared_unclosed (unclosed : Unclosed ops) (before : List Op) :
    ∃ out, Unclosed out ∧ cleared (before ++ ops) = out.reverse ++ cleared before := by
  induction unclosed generalizing before with
  | nested nested =>
      obtain ⟨out, outNested, stack⟩ := cleared_nested nested before
      exact ⟨out, .nested outNested, stack⟩
  | @opens front rest first nested start _ ih =>
      obtain ⟨frontOut, frontNested, frontStack⟩ := cleared_nested nested before
      obtain ⟨out, unclosed, stack⟩ := ih (before ++ front ++ [first])
      refine ⟨frontOut ++ first :: out, .opens frontNested start unclosed, ?_⟩
      rw [cleared_start start, frontStack] at stack
      simpa using stack

theorem clearLoops_nested (nested : Nested ops) : Nested (clearLoops ops) := by
  obtain ⟨out, outNested, stack⟩ := cleared_nested nested []
  have whole : clearLoops ops = out := by
    simpa [clearLoops, cleared] using congrArg List.reverse stack
  rw [whole]
  exact outNested

theorem clearLoops_opens (front : List Op) (start : first.opcode = .loopStart)
    (after : Unclosed rest) :
    ∃ out, Unclosed out ∧ clearLoops (front ++ first :: rest) = clearLoops front ++ first :: out := by
  obtain ⟨out, unclosed, stack⟩ := cleared_unclosed after (front ++ [first])
  refine ⟨out, unclosed, ?_⟩
  rw [cleared_start start, List.append_assoc, List.singleton_append] at stack
  simpa [clearLoops, cleared] using congrArg List.reverse stack

/-- What lies below a loop end, and the loop end itself, is there to stay. -/
theorem pushClearing_above (stop : last.opcode = .loopEnd) (upper below : List Op) (op : Op) :
    pushClearing (upper ++ last :: below) op = pushClearing upper op ++ last :: below := by
  have noUnit : ¬ isUnitStep last := fun unit => (isPlain_of_isUnitStep unit).2 stop
  have noStart : last.opcode ≠ .loopStart := by simp [stop]
  match upper with
  | [] => cases below <;> simp [pushClearing, noUnit]
  | [step] => simp [pushClearing, noStart]
  | step :: before :: others =>
      simp only [List.cons_append, pushClearing]
      split <;> rfl

theorem foldl_pushClearing_above (stop : last.opcode = .loopEnd) (upper below ops : List Op) :
    ops.foldl pushClearing (upper ++ last :: below) =
      ops.foldl pushClearing upper ++ last :: below := by
  induction ops generalizing upper with
  | nil => rfl
  | cons op rest ih => rw [List.foldl_cons, List.foldl_cons, pushClearing_above stop, ih]

theorem pushClearing_unmatched (nested : Nested front) :
    pushClearing (cleared front) last = last :: cleared front := by
  obtain ⟨out, outNested, stack⟩ := cleared_nested nested []
  obtain ⟨tree, nests⟩ := outNested 0
  have whole : cleared front = out.reverse := by simpa [cleared] using stack
  rw [whole]
  rcases order : out.reverse with _ | ⟨step, _ | ⟨before, others⟩⟩
  · rfl
  · rfl
  · exact if_neg fun clear => not_clear_of_nests nests order clear.2

theorem clearLoops_closes (before : Nested front) (stop : last.opcode = .loopEnd) (rest : List Op) :
    clearLoops (front ++ last :: rest) = clearLoops front ++ last :: clearLoops rest := by
  have stack : cleared (front ++ last :: rest) = cleared rest ++ last :: cleared front := by
    rw [cleared_append, List.foldl_cons, pushClearing_unmatched before]
    exact foldl_pushClearing_above stop [] (cleared front) rest
  simpa [clearLoops, cleared] using congrArg List.reverse stack

end Clearing

section Folding

theorem foldRuns_nested (nested : Nested ops) : Nested (foldRuns ops) := by
  obtain ⟨tree, nests⟩ := nested 0
  obtain ⟨other, out, _, outNests, stack, _⟩ :=
    @exists_folds 0 ops tree nests 0 [] [] (by simp) rfl (Nat.le_refl 0) (by simp)
  have whole : foldRuns ops = out := by
    simpa [foldRuns] using congrArg List.reverse stack
  rw [whole]
  exact outNests.nested

/-- An op that is no step keeps what stands before it from what follows. -/
theorem foldRuns_barrier {mark : Op} (axis : mark.axis? = none) (front rest : List Op) :
    foldRuns (front ++ mark :: rest) = foldRuns front ++ mark :: foldRuns rest := by
  have above (stack : List Op) : rest.foldl pushFolding (stack ++ mark :: folded front) =
      rest.foldl pushFolding stack ++ mark :: folded front := by
    induction rest generalizing stack with
    | nil => rfl
    | cons op rest ih =>
        have pushed : pushFolding (stack ++ mark :: folded front) op =
            pushFolding stack op ++ mark :: folded front := by
          apply pushFolding_append
          intro last top isSome same
          cases top
          rw [← same, axis] at isSome
          cases isSome
        rw [List.foldl_cons, List.foldl_cons, pushed, ih]
  have stack : folded (front ++ mark :: rest) = folded rest ++ mark :: folded front := by
    rw [folded, List.foldl_append, List.foldl_cons, pushFolding_other axis]
    exact above []
  simpa [foldRuns, folded] using congrArg List.reverse stack

theorem foldRuns_unclosed (unclosed : Unclosed ops) : Unclosed (foldRuns ops) := by
  induction unclosed with
  | nested nested => exact .nested (foldRuns_nested nested)
  | opens before start _ ih =>
      rw [foldRuns_barrier (axis?_start start)]
      exact .opens (foldRuns_nested before) start ih

end Folding

theorem optimize_nested (nested : Nested ops) : Nested (optimize ops) :=
  foldRuns_nested (clearLoops_nested nested)

theorem optimize_closes (before : Nested front) (stop : last.opcode = .loopEnd) (rest : List Op) :
    optimize (front ++ last :: rest) = optimize front ++ last :: optimize rest := by
  rw [optimize, clearLoops_closes before stop, foldRuns_barrier (axis?_end stop)]
  rfl

theorem optimize_opens (front : List Op) (start : first.opcode = .loopStart)
    (after : Unclosed rest) :
    ∃ out, Unclosed out ∧ optimize (front ++ first :: rest) = optimize front ++ first :: out := by
  obtain ⟨out, unclosed, whole⟩ := clearLoops_opens front start after
  refine ⟨foldRuns out, foldRuns_unclosed unclosed, ?_⟩
  rw [optimize, whole, foldRuns_barrier (axis?_start start)]
  rfl

theorem length_optimize_le (ops : List Op) : (optimize ops).length ≤ ops.length := by
  have cleared_ : (clearLoops ops).length ≤ ops.length := by
    rw [clearLoops, List.length_reverse]
    exact length_cleared_le ops
  have folded_ := length_folded_le (clearLoops ops)
  rw [optimize, length_foldRuns]
  omega

/-- Optimizing changes neither whether ops are rejected nor why.  The bracket that resolution
complains about is still there, behind what the ops in front of it were simplified to. -/
theorem optimize_rejected_alike (small : ops.length ≤ 0x80000000) :
    ((∃ program, resolve (optimize ops) = .ok program) ↔ ∃ program, resolve ops = .ok program) ∧
    (∀ index, resolve ops = .error (.unmatchedClose index) →
      resolve (optimize ops) = .error (.unmatchedClose (optimize (ops.take index)).length) ∧
      (optimize ops)[(optimize (ops.take index)).length]? = ops[index]?) ∧
    (∀ index, resolve ops = .error (.unmatchedOpen index) →
      resolve (optimize ops) = .error (.unmatchedOpen (optimize (ops.take index)).length) ∧
      (optimize ops)[(optimize (ops.take index)).length]? = ops[index]?) := by
  have short : (optimize ops).length ≤ 0x80000000 := Nat.le_trans (length_optimize_le ops) small
  have verdict := resolve_verdict small
  generalize outcome : resolve ops = result at verdict
  cases verdict with
  | @resolved program nested =>
      refine ⟨⟨fun _ => ⟨program, rfl⟩, fun _ => ?_⟩, nofun, nofun⟩
      exact resolve_of_nested (optimize_nested nested) short
  | @closes front rest last whole before stop =>
      subst whole
      rw [optimize_closes before stop] at short ⊢
      have rejected := resolve_closes (optimize_nested before) stop short
      refine ⟨?_, ?_, nofun⟩
      · rw [rejected]
        exact ⟨nofun, nofun⟩
      · rintro _ ⟨⟩
        rw [List.take_left, rejected]
        simp
  | @opens front rest first whole before start after =>
      subst whole
      obtain ⟨out, unclosed, optimized⟩ := optimize_opens front start after
      rw [optimized] at short ⊢
      have rejected := resolve_opens (optimize_nested before) start unclosed short
      refine ⟨?_, nofun, ?_⟩
      · rw [rejected]
        exact ⟨nofun, nofun⟩
      · rintro _ ⟨⟩
        rw [List.take_left, rejected]
        simp

theorem optimize_rejected_alike_stray_end :
    resolve (Source.ops "+-[-]]+") = .error (.unmatchedClose 5) ∧
      resolve (optimize (Source.ops "+-[-]]+")) = .error (.unmatchedClose 1) := by
  have rejected : resolve (Source.ops "+-[-]]+") = .error (.unmatchedClose 5) := rfl
  obtain ⟨_, closes, _⟩ := @optimize_rejected_alike (Source.ops "+-[-]]+") (by decide)
  have moved : (optimize ((Source.ops "+-[-]]+").take 5)).length = 1 := by decide
  refine ⟨rejected, ?_⟩
  rw [← moved]
  exact (closes 5 rejected).1

end Tapewright.Peephole
