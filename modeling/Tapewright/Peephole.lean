import Tapewright.Op

namespace Tapewright.Peephole

/-! Local simplification of unresolved op lists.

Both passes push the ops one by one onto a stack of simplified ops, whose head is
the op pushed last, so what stands before an op is simplified without knowing what
follows it.  Clear loops go first: they are recognised by their unit step, which
folding could disturb.
-/

/-- An increment or decrement by exactly one.  A cell stepped by one reaches zero
from any value; a cell stepped by an even number need not. -/
def isUnitStep (op : Op) : Bool :=
  (op.opcode == .increment || op.opcode == .decrement) && op.operand == 1

/-- Push an op; a loop end that closes a loop around one unit step turns the loop
into an assignment of zero. -/
def pushClearing (stack : List Op) (op : Op) : List Op :=
  match stack with
  | step :: start :: below =>
      if op.opcode = .loopEnd ∧ start.opcode = .loopStart ∧ isUnitStep step then
        ⟨.assign, 0⟩ :: below
      else
        op :: stack
  | _ => op :: stack

/-- Replace every loop around a single unit step by an assignment of zero. -/
def clearLoops (ops : List Op) : List Op :=
  (ops.foldl pushClearing []).reverse

/-- The operand of `last` once `op`, which steps along the same axis, is merged
into it.  The merged op keeps the opcode of the earlier one. -/
def mergedOperand (last op : Op) : Int32 :=
  if last.opcode = op.opcode then last.operand + op.operand else last.operand - op.operand

/-- Push an op; one that steps along the axis of the op before it is merged into
that one, and a merged step of zero disappears. -/
def pushFolding (stack : List Op) (op : Op) : List Op :=
  match stack with
  | [] => [op]
  | last :: below =>
      if op.axis?.isSome ∧ last.axis? = op.axis? then
        if mergedOperand last op = 0 then
          below
        else
          { last with operand := mergedOperand last op } :: below
      else
        op :: stack

/-- Collapse neighbouring steps along one axis into one op with the net step.  When
a run nets to zero its neighbours meet and may merge in turn. -/
def foldRuns (ops : List Op) : List Op :=
  (ops.foldl pushFolding []).reverse

def optimize (ops : List Op) : List Op :=
  foldRuns (clearLoops ops)

end Tapewright.Peephole
