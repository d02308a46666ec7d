import Tapewright.Proofs.Pairing
import Tapewright.Proofs.StructuredRun

namespace Tapewright

/-! Loops without jumps.

Balanced ops have exactly one tree, and a run that jumps from bracket to bracket does what the
evaluation of the tree does: it ends when the evaluation ends, in the same way and with the
same tape and streams.  On the way it never leaves the program.
-/

namespace LoopTree

/-- One tree after another. -/
def append : LoopTree → LoopTree → LoopTree
  | .done, rest => rest
  | .act index op next, rest => .act index op (next.append rest)
  | .loop index body next, rest => .loop index body (next.append rest)

theorem append_done (tree : LoopTree) : tree.append .done = tree := by
  induction tree with
  | done => rfl
  | act index op next ih => rw [append, ih]
  | loop index body next _ ih => rw [append, ih]

theorem prepend_plain {op : Op} (plain : op.IsPlain) (index : Nat) (tree : LoopTree)
    (after : List LoopTree) : tree.prepend index op after = some (.act index op tree, after) := by
  obtain ⟨noStart, noEnd⟩ := plain
  cases kind : op.opcode <;> simp_all [prepend]

/-- Read from the end, ops that nest put their tree in front of what has been read. -/
theorem nest_append {index : Nat} {ops : List Op} {tree : LoopTree} (nests : Nests index ops tree)
    (rest : LoopTree) (after : List LoopTree) (earlier : List (Op × Nat)) :
    rest.nest after ((ops.zipIdx index).reverse ++ earlier) =
      (tree.append rest).nest after earlier := by
  induction nests generalizing rest after earlier with
  | done => rfl
  | @act index op ops next plain _ ih =>
      have tail := ih rest after ((op, index) :: earlier)
      rw [List.zipIdx_cons, List.reverse_cons, List.append_assoc, List.singleton_append, tail, nest,
        prepend_plain plain]
      rfl
  | @loop index first last inner ops body next start stop _ _ insideIH tailIH =>
      have tail := tailIH rest after ((last, index + 1 + inner.length) ::
        ((inner.zipIdx (index + 1)).reverse ++ (first, index) :: earlier))
      have inside := insideIH .done (next.append rest :: after) ((first, index) :: earlier)
      rw [append_done] at inside
      simp only [List.zipIdx_cons, List.zipIdx_append, List.reverse_cons, List.reverse_append,
        List.append_assoc, List.cons_append, List.nil_append, tail, nest, prepend, stop, inside, start]
      rfl

theorem ofOps?_of_nests {ops : List Op} {tree : LoopTree} (nests : Nests 0 ops tree) :
    ofOps? ops = some tree := by
  have whole := nest_append nests .done [] []
  rw [List.append_nil, append_done] at whole
  rw [ofOps?, whole]
  rfl

/-- Ops that nest do so in one way only, and reading them finds it. -/
theorem nests_iff_of_nested {ops : List Op} (nested : Nested ops) :
    ∃ tree, ofOps? ops = some tree ∧ ∀ other, Nests 0 ops other ↔ other = tree := by
  obtain ⟨tree, nests⟩ := nested 0
  have read := ofOps?_of_nests nests
  refine ⟨tree, read, fun other => ⟨?_, ?_⟩⟩
  · intro otherNests
    have otherRead := ofOps?_of_nests otherNests
    rw [read] at otherRead
    exact (Option.some.inj otherRead).symm
  · rintro rfl
    exact nests

theorem eval_eq_result (policy : BoundsPolicy) (tree : LoopTree) (fuel : Nat)
    (state : Interpreter.State) :
    tree.eval policy fuel state = (evalFrom policy fuel tree state).result := by
  rw [eval]
  cases evalFrom policy fuel tree state <;> rfl

end LoopTree

namespace Interpreter

variable {policy : BoundsPolicy} {program : Program} {tree : LoopTree} {state next : State}

/-- The states a run goes through, the first one included. -/
inductive Reaches (policy : BoundsPolicy) (program : Program) (state : State) : State → Prop where
  | start : Reaches policy program state state
  | step {middle next : State} (earlier : Reaches policy program state middle)
      (running : Interpreter.step policy program middle = .running next) :
      Reaches policy program state next

/-- A step from an op of the program leads to an op of the program, or just behind the last. -/
theorem step_index_le (placed : tree.Placed program 0 program.size)
    (running : step policy program state = .running next) : next.index ≤ program.size := by
  cases found : program.ops[state.index]? with
  | none => simp [step, found] at running
  | some op =>
      have inside : state.index < program.size := (Array.getElem?_eq_some_iff.mp found).1
      by_cases start : op.opcode = .loopStart
      · obtain ⟨close, before, loop⟩ :=
          placed.loopAt_of_start (Nat.zero_le _) inside found start
        obtain ⟨first, head, _, forward⟩ := loop.head
        rw [found] at head
        cases head
        simp only [step, found, start] at running
        split at running
        · cases running
        · split at running <;> cases running
          · rw [forward]
            exact before
          · exact inside
      by_cases ends : op.opcode = .loopEnd
      · obtain ⟨start, loop⟩ := placed.loopAt_of_end (Nat.zero_le _) inside found ends
        obtain ⟨last, foot, _, back⟩ := loop.foot
        rw [found] at foot
        cases foot
        simp only [step, found, ends] at running
        cases running
        rw [back]
        exact Nat.le_trans (Nat.le_of_lt loop.lt) (Nat.le_of_lt inside)
      · rw [step_of_plain found ⟨start, ends⟩] at running
        rw [act_index running]
        exact inside

theorem Reaches.index_le (placed : tree.Placed program 0 program.size)
    (reaches : Reaches policy program state next) (inside : state.index ≤ program.size) :
    next.index ≤ program.size := by
  induction reaches with
  | start => exact inside
  | step _ running _ => exact step_index_le placed running

end Interpreter

namespace LoopTree

open Interpreter

/-- Runs implement structured loops.  Balanced ops have one tree, and where they resolve, a run
of the program terminates exactly if the evaluation of the tree does; then both end in the same
way, with the same pointer, tape and streams.  No run ever leaves the program. -/
theorem run_agrees_with_eval {ops : List Op} (balanced : Balanced ops) :
    ∃ tree, ofOps? ops = some tree ∧ (∀ other, Nests 0 ops other ↔ other = tree) ∧
      (ops.length ≤ 0x80000000 → ∃ program, Program.resolve ops = .ok program) ∧
      ∀ program, Program.resolve ops = .ok program → ∀ policy tape input output,
        (Terminates policy program (.start tape input output) ↔
          ∃ fuel result, tree.eval policy fuel (.start tape input output) = some result) ∧
        (∀ fuel ending last other ending' last',
          run policy program fuel (.start tape input output) = some (ending, last) →
          tree.eval policy other (.start tape input output) = some (ending', last') →
          ending' = ending ∧ last'.pointer = last.pointer ∧ last'.tape = last.tape ∧
            last'.input = last.input ∧ last'.output = last.output) ∧
        ∀ state, Reaches policy program (.start tape input output) state →
          state.index ≤ program.size := by
  have nested := balanced_iff_nested.mp balanced
  obtain ⟨tree, read, unique⟩ := nests_iff_of_nested nested
  refine ⟨tree, read, unique, Program.resolve_of_nested nested, ?_⟩
  intro program resolved policy tape input output
  obtain ⟨other, nests, fits, placed⟩ := Program.placed_of_resolve resolved
  obtain rfl := (unique other).mp nests
  have follows (fuel : Nat) := @evalFrom_follows policy program 0 program.size other placed fuel
    (.start tape input output)
  have here : (State.start tape input output).at 0 = .start tape input output := rfl
  refine ⟨⟨?_, ?_⟩, ?_, ?_⟩
  · rintro ⟨fuel, ending, last, ended⟩
    obtain ⟨final, result, _⟩ := result_of_run (follows fuel) (Nat.le_refl fuel) (here ▸ ended)
    exact ⟨fuel, (ending, final), by rw [eval_eq_result, result]⟩
  · rintro ⟨fuel, ⟨ending, last⟩, evaluated⟩
    rw [eval_eq_result] at evaluated
    obtain ⟨more, final, ended, _⟩ := run_of_result (follows fuel) evaluated
    exact ⟨more, ending, final, ended⟩
  · intro fuel ending last more ending' last' ended evaluated
    rw [eval_eq_result] at evaluated
    obtain ⟨_, final, alsoEnded, same⟩ := run_of_result (follows more) evaluated
    obtain ⟨rfl, rfl⟩ := Prod.mk.inj (run_unique ended alsoEnded)
    simp only [State.at, State.mk.injEq] at same
    obtain ⟨_, pointer, sameTape, sameInput, sameOutput⟩ := same
    exact ⟨rfl, pointer.symm, sameTape.symm, sameInput.symm, sameOutput.symm⟩
  · intro state reaches
    exact reaches.index_le placed (Nat.zero_le _)

theorem run_agrees_with_eval_drain :
    ∃ tree, ofOps? (Source.ops "++[>+<-]>.") = some tree ∧
      ∃ fuel last, tree.eval .checked fuel (.start (.zeroed 2) (.ofBytes []) .unlimited) =
        some (.finished, last) ∧ last.tape = ⟨#[0, 2]⟩ ∧ last.output = ⟨#[2], [], none, 1⟩ := by
  have direct : ∃ program, Program.resolve (Source.ops "++[>+<-]>.") = .ok program ∧
      (run .checked program 30 (.start (.zeroed 2) (.ofBytes []) .unlimited)).map
        (fun outcome => (outcome.1, outcome.2.tape, outcome.2.output)) =
        some (.finished, ⟨#[0, 2]⟩, ⟨#[2], [], none, 1⟩) := ⟨_, rfl, by decide⟩
  obtain ⟨program, resolved, ran⟩ := direct
  obtain ⟨⟨ending, last⟩, ended, same⟩ := Option.map_eq_some_iff.mp ran
  simp only [Prod.mk.injEq] at same
  obtain ⟨rfl, tape, output⟩ := same
  obtain ⟨_, nests, _⟩ := Program.resolve_eq_ok_iff.mp resolved
  obtain ⟨tree, read, _, _, agrees⟩ := run_agrees_with_eval nests.balanced
  obtain ⟨terminates, alike, _⟩ :=
    agrees program resolved .checked (.zeroed 2) (.ofBytes []) .unlimited
  obtain ⟨fuel, ⟨ending', last'⟩, evaluated⟩ := terminates.mp ⟨30, _, last, ended⟩
  obtain ⟨rfl, _, sameTape, _, sameOutput⟩ := alike _ _ _ _ _ _ ended evaluated
  exact ⟨tree, read, fuel, last', evaluated, sameTape.trans tape, sameOutput.trans output⟩

end LoopTree

end Tapewright
