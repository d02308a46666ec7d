import Tapewright.Program
import Tapewright.X86.Assembler

namespace Tapewright.X86

/-! The native code of a program: a prologue, one block per op in order, and an
epilogue.  A loop start is emitted with an open exit; the loop end jumps back to it
and closes the exit just behind itself. -/

/-- Where the host functions live that native code calls. -/
structure HostAddresses where
  putCell : UInt64
  getCell : UInt64
deriving DecidableEq, Repr

structure LoopHead where
  /-- The first byte of the test, where the loop end jumps back to. -/
  start : Nat
  exitField : Nat
deriving DecidableEq, Repr

/-- Code of the ops so far, and the open loops by the index of the op that ends
each of them. -/
structure Assembly where
  assembler : Assembler
  pending : List (Nat × LoopHead)
deriving DecidableEq, Repr

namespace Assembly

def start : Assembly :=
  ⟨Assembler.empty.emit prologue, []⟩

def emit (assembly : Assembly) (instructions : List Instruction) : Assembly :=
  { assembly with assembler := assembly.assembler.emit instructions }

def openLoop (assembly : Assembly) (close : Nat) : Assembly :=
  match assembly with
  | ⟨assembler, pending⟩ =>
      let start := assembler.size
      match assembler.emitJumpIfZero with
      | (exitField, next) => ⟨next, (close, ⟨start, exitField⟩) :: pending⟩

/-- End the loop that is to be closed at this index: jump back to its test, and let
the test leave the loop right after the jump. -/
def closeLoop (assembly : Assembly) (index : Nat) : Assembly :=
  match assembly with
  | ⟨assembler, pending⟩ =>
      match pending.lookup index with
      | none => ⟨assembler, pending⟩
      | some head =>
          let next := assembler.emitJumpBack head.start
          let after := next.size
          ⟨next.patch head.exitField after, pending.eraseP (·.1 == index)⟩

def cellBytes : Int64 := 4

def block (host : HostAddresses) (assembly : Assembly) (index : Nat) (op : Op) : Assembly :=
  match op.opcode with
  | .shiftRight => assembly.emit (addPointer (op.operand.toInt64 * cellBytes))
  | .shiftLeft => assembly.emit (addPointer (-op.operand.toInt64 * cellBytes))
  | .increment => assembly.emit (addCell op.operand)
  | .decrement => assembly.emit (addCell (-op.operand))
  | .assign => assembly.emit (storeCell op.operand)
  | .output => assembly.emit (callWithCell host.putCell)
  | .input => assembly.emit (callIntoCell host.getCell)
  | .loopStart => assembly.openLoop op.target
  | .loopEnd => assembly.closeLoop index

def blocks (host : HostAddresses) (assembly : Assembly) (index : Nat) : List Op → Assembly
  | [] => assembly
  | op :: rest => blocks host (assembly.block host index op) (index + 1) rest

end Assembly

def assemble (host : HostAddresses) (program : Program) : Assembler :=
  (Assembly.start.blocks host 0 program.ops.toList).assembler.emit epilogue

end Tapewright.X86
