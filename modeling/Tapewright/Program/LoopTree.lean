import Tapewright.Interpreter

namespace Tapewright

/-! Programs as nested loops.

Balanced ops have one reading as a sequence of ops and loops.  Evaluating that
structure needs no jumps: a loop tests its cell, runs its body, and starts over.
Every op keeps its index in the op list, which errors report.
-/

/-- A sequence of ops and loops.  The rest of the sequence hangs off each element. -/
inductive LoopTree where
  | done
  | act (index : Nat) (op : Op) (next : LoopTree)
  | loop (index : Nat) (body next : LoopTree)
deriving DecidableEq, Repr

namespace LoopTree

/-- Put one more op in front of a tree.  What follows the loops still open to the left
is kept on a stack. -/
def prepend (index : Nat) (op : Op) (tree : LoopTree) (after : List LoopTree) :
    Option (LoopTree × List LoopTree) :=
  match op.opcode, after with
  | .loopEnd, _ => some (.done, tree :: after)
  | .loopStart, next :: outer => some (.loop index tree next, outer)
  | .loopStart, [] => none
  | _, _ => some (.act index op tree, after)

def nest (tree : LoopTree) (after : List LoopTree) : List (Op × Nat) → Option LoopTree
  | [] => if after.isEmpty then some tree else none
  | (op, index) :: earlier =>
      match tree.prepend index op after with
      | some (wider, outer) => nest wider outer earlier
      | none => none

def ofOps? (ops : List Op) : Option LoopTree :=
  nest .done [] ops.zipIdx.reverse

inductive Progress where
  | completed (state : Interpreter.State)
  | ended (ending : Interpreter.Ending) (state : Interpreter.State)
  | unfinished

/-- Evaluate a tree; every element and every test of a loop costs one unit of fuel. -/
def evalFrom (policy : BoundsPolicy) : Nat → LoopTree → Interpreter.State → Progress
  | 0, _, _ => .unfinished
  | _ + 1, .done, state => .completed state
  | fuel + 1, .act index op next, state =>
      match Interpreter.act policy op { state with index } with
      | .running after => evalFrom policy fuel next after
      | .ended ending last => .ended ending last
  | fuel + 1, .loop index body next, state =>
      match state.tape.get? state.pointer with
      | none => .ended ({ state with index }.lost policy) state
      | some cell =>
          if cell = 0 then
            evalFrom policy fuel next state
          else
            match evalFrom policy fuel body state with
            | .completed after => evalFrom policy fuel (.loop index body next) after
            | .ended ending last => .ended ending last
            | .unfinished => .unfinished

/-- Evaluate a whole tree and flush; `none` when the fuel runs out. -/
def eval (policy : BoundsPolicy) (tree : LoopTree) (fuel : Nat) (state : Interpreter.State) :
    Option (Interpreter.Ending × Interpreter.State) :=
  match evalFrom policy fuel tree state with
  | .completed after => some (Interpreter.finish after)
  | .ended ending last => some (ending, last)
  | .unfinished => none

end LoopTree

end Tapewright
