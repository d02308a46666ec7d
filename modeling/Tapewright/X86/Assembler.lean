import Tapewright.X86.Instruction

namespace Tapewright.X86

/-! Assembling code from the few sequences native code needs.

Forward jumps are emitted with an empty displacement and patched once their target
is known.  A displacement counts from the end of its field, which is also the end
of the jump.
-/

/-- The displacement from the end of a field to a target, modulo 2^32. -/
def displacement (field target : Nat) : Int32 :=
  Int32.ofInt ((target : Int) - (field + 4 : Nat))

/-- Whether the distance from a field to a target fits a signed 64-bit word.  Targets
from 2^63 on stand for the negative positions, and the lowest of them are too far away
from any field.  With overflow checks, which this follows, such a call panics and sets no
target; a build without them would wrap around and set the field. -/
def reaches (field target : Nat) : Bool :=
  target < 0x8000000000000000 || 0x8000000000000000 + field + 4 ≤ target

/-- Add a byte count to the cell address, by the shortest form that holds it. -/
def addPointer (bytes : Int64) : List Instruction :=
  if -128 ≤ bytes ∧ bytes ≤ 127 then
    [.addRbxImm8 bytes.toInt8]
  else if -2147483648 ≤ bytes ∧ bytes ≤ 2147483647 then
    [.addRbxImm32 bytes.toInt32]
  else
    [.movRaxImm64 bytes.toUInt64, .addRbxRax]

/-- Add to the current cell, by the shortest form that holds the value. -/
def addCell (value : Int32) : List Instruction :=
  if -128 ≤ value ∧ value ≤ 127 then
    [.addCellImm8 value.toInt8]
  else
    [.addCellImm32 value]

def storeCell (value : Int32) : List Instruction :=
  [.movCellImm32 value]

/-- Save the registers the function keeps, and set up the cell address and the
host context from its arguments.  Three pushes and the return address leave the
stack aligned to 16 bytes at every host call. -/
def prologue : List Instruction :=
  [.pushRbp, .movRbpRsp, .pushRbx, .pushR12, .movRbxRdi, .movR12Rsi]

def epilogue : List Instruction :=
  [.popR12, .popRbx, .popRbp, .ret]

/-- Pass the host context and the current cell to a host function. -/
def callWithCell (address : UInt64) : List Instruction :=
  [.movRdiR12, .movEsiCell, .movRaxImm64 address, .callRax]

/-- Pass the host context to a host function and store what it returns. -/
def callIntoCell (address : UInt64) : List Instruction :=
  [.movRdiR12, .movRaxImm64 address, .callRax, .movCellEax]

/-- Jump on a zero cell, to a target that is patched in later. -/
def jumpIfZero : List Instruction :=
  [.cmpCellImm8 0, .jz 0]

def jumpBack (here target : Nat) : List Instruction :=
  [.jmp (displacement (here + 1) target)]

structure Assembler where
  code : Array UInt8
deriving DecidableEq, Repr

namespace Assembler

def empty : Assembler :=
  ⟨#[]⟩

def size (assembler : Assembler) : Nat :=
  assembler.code.size

def emit (assembler : Assembler) (instructions : List Instruction) : Assembler :=
  ⟨assembler.code ++ encodeAll instructions⟩

/-- Emit a jump on a zero cell; its field is the last four bytes emitted. -/
def emitJumpIfZero (assembler : Assembler) : Nat × Assembler :=
  let next := assembler.emit jumpIfZero
  (next.size - 4, next)

def emitJumpBack (assembler : Assembler) (target : Nat) : Assembler :=
  assembler.emit (jumpBack assembler.size target)

def overwrite (code : Array UInt8) (position : Nat) : List UInt8 → Array UInt8
  | [] => code
  | byte :: rest => overwrite (code.setIfInBounds position byte) (position + 1) rest

/-- Whether the four bytes of a field lie inside the code. -/
def hasField (assembler : Assembler) (field : Nat) : Bool :=
  field + 4 ≤ assembler.size

/-- Point the displacement in a field at a target.  A field outside the code is left
alone. -/
def patch (assembler : Assembler) (field target : Nat) : Assembler :=
  if assembler.hasField field then
    ⟨overwrite assembler.code field (bytes32 (displacement field target).toUInt32)⟩
  else
    assembler

end Assembler

inductive Call where
  | prologue
  | epilogue
  | addPointer (bytes : Int64)
  | addCell (value : Int32)
  | storeCell (value : Int32)
  | callWithCell (address : UInt64)
  | callIntoCell (address : UInt64)
  | jumpIfZero
  | jumpBack (target : Nat)
  | patch (field target : Nat)
deriving DecidableEq, Repr

inductive CallResult where
  | done
  /-- The displacement field of a jump that was emitted without a target. -/
  | field (position : Nat)
  /-- A displacement that was not written, because its field is not inside the code or
  its target is too far away. -/
  | refused
deriving DecidableEq, Repr

def Assembler.perform (assembler : Assembler) : Call → CallResult × Assembler
  | .prologue => (.done, assembler.emit X86.prologue)
  | .epilogue => (.done, assembler.emit X86.epilogue)
  | .addPointer bytes => (.done, assembler.emit (X86.addPointer bytes))
  | .addCell value => (.done, assembler.emit (X86.addCell value))
  | .storeCell value => (.done, assembler.emit (X86.storeCell value))
  | .callWithCell address => (.done, assembler.emit (X86.callWithCell address))
  | .callIntoCell address => (.done, assembler.emit (X86.callIntoCell address))
  | .jumpIfZero =>
      let (position, next) := assembler.emitJumpIfZero
      (.field position, next)
  | .jumpBack target =>
      if reaches (assembler.size + 1) target then (.done, assembler.emitJumpBack target)
      else (.refused, assembler.emit [.jmp 0])
  | .patch field target =>
      if assembler.hasField field && reaches field target then
        (.done, assembler.patch field target)
      else (.refused, assembler)

end Tapewright.X86
