import Tapewright.X86.Decode

namespace Tapewright.X86

/-! What native code says, a few instructions at a time.

An idiom is one or more instructions that belong together: setting up the frame, moving the
cell address, calling the host, testing a cell and jumping on zero.  Reading one gives the
numbers it works with at their full width, whichever form the code holds them in.  A
displacement counts from the end of its jump.
-/

inductive Idiom where
  | prologue
  | epilogue
  | addPointer (bytes : Int64)
  | addCell (value : Int32)
  | storeCell (value : Int32)
  | callWithCell (address : UInt64)
  | callIntoCell (address : UInt64)
  | jumpIfZero (displacement : Int32)
  | jump (displacement : Int32)
deriving DecidableEq, Repr

/-- The idiom at the start of some instructions, with the instructions after it. -/
def Idiom.read? : List Instruction → Option (Idiom × List Instruction)
  | .pushRbp :: .movRbpRsp :: .pushRbx :: .pushR12 :: .movRbxRdi :: .movR12Rsi :: rest =>
      some (.prologue, rest)
  | .popR12 :: .popRbx :: .popRbp :: .ret :: rest => some (.epilogue, rest)
  | .addRbxImm8 value :: rest => some (.addPointer value.toInt64, rest)
  | .addRbxImm32 value :: rest => some (.addPointer value.toInt64, rest)
  | .movRaxImm64 value :: .addRbxRax :: rest => some (.addPointer value.toInt64, rest)
  | .addCellImm8 value :: rest => some (.addCell value.toInt32, rest)
  | .addCellImm32 value :: rest => some (.addCell value, rest)
  | .movCellImm32 value :: rest => some (.storeCell value, rest)
  | .movRdiR12 :: .movEsiCell :: .movRaxImm64 address :: .callRax :: rest =>
      some (.callWithCell address, rest)
  | .movRdiR12 :: .movRaxImm64 address :: .callRax :: .movCellEax :: rest =>
      some (.callIntoCell address, rest)
  | .cmpCellImm8 value :: .jz displacement :: rest =>
      if value = 0 then some (.jumpIfZero displacement, rest) else none
  | .jmp displacement :: rest => some (.jump displacement, rest)
  | _ => none

/-- Read code from its first byte to its last. -/
def disassemble (bytes : List UInt8) : Option (List Idiom) :=
  (decodeAll bytes).bind (readAll Idiom.read?)

end Tapewright.X86
