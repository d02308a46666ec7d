namespace Tapewright

/-! The steps a compiled program takes.

An op is an opcode with one 32-bit operand.  What the operand means depends on
the opcode: a step count for moves and arithmetic (of either sign once runs are
folded), the literal of an assignment, and the index of the partner once the
brackets are resolved.  Input and output carry one and ignore it.
-/

inductive Opcode where
  | shiftRight
  | shiftLeft
  | increment
  | decrement
  | output
  | input
  | loopStart
  | loopEnd
  | assign
deriving DecidableEq, Repr, Inhabited

/-- What a step op changes: the current cell, or the data pointer. -/
inductive Axis where
  | value
  | pointer
deriving DecidableEq, Repr

namespace Opcode

/-- The number an opcode is known by outside the program. -/
def number : Opcode → Nat
  | .shiftRight => 1
  | .shiftLeft => 2
  | .increment => 3
  | .decrement => 4
  | .output => 5
  | .input => 6
  | .loopStart => 7
  | .loopEnd => 8
  | .assign => 9

def mnemonic : Opcode → String
  | .shiftRight => "shr"
  | .shiftLeft => "shl"
  | .increment => "inc"
  | .decrement => "dec"
  | .output => "out"
  | .input => "in"
  | .loopStart => "jz"
  | .loopEnd => "jmp"
  | .assign => "set"

/-- The axis along which neighbouring ops of this kind can be merged. -/
def axis? : Opcode → Option Axis
  | .increment | .decrement => some .value
  | .shiftRight | .shiftLeft => some .pointer
  | .output | .input | .loopStart | .loopEnd | .assign => none

def isBackward : Opcode → Bool
  | .shiftLeft | .decrement => true
  | _ => false

def showsOperand : Opcode → Bool
  | .output | .input => false
  | _ => true

end Opcode

structure Op where
  opcode : Opcode
  operand : Int32
deriving DecidableEq, Repr, Inhabited

namespace Op

/-- The net change along the op's axis; steps back count negative, modulo 2^32. -/
def signedStep (op : Op) : Int32 :=
  if op.opcode.isBackward then -op.operand else op.operand

def axis? (op : Op) : Option Axis :=
  op.opcode.axis?

/-- What a shift moves the data pointer by: its operand, sign extended. -/
def reach (op : Op) : UInt64 :=
  op.operand.toInt64.toUInt64

/-- The index of the op a resolved bracket is paired with. -/
def target (op : Op) : Nat :=
  op.operand.toNatClampNeg

def render (op : Op) : String :=
  if op.opcode.showsOperand then
    op.opcode.mnemonic ++ " " ++ toString op.operand.toInt
  else
    op.opcode.mnemonic

end Op

end Tapewright
