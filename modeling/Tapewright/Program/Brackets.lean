import Tapewright.Op

namespace Tapewright

/-! Balanced brackets, said without resolving them. -/

/-- How many loops the ops start. -/
def starts (ops : List Op) : Nat :=
  ops.countP (·.opcode == .loopStart)

/-- How many loops the ops end. -/
def ends (ops : List Op) : Nat :=
  ops.countP (·.opcode == .loopEnd)

/-- No loop is ended before it is started, and every loop is ended. -/
structure Balanced (ops : List Op) : Prop where
  started : ∀ count, ends (ops.take count) ≤ starts (ops.take count)
  ended : ends ops = starts ops

end Tapewright
