import Tapewright.X86.Word

namespace Tapewright.X86

/-! The instruction forms native code is made of.

`rbx` holds the address of the current cell for the whole function and `r12` the
host context; "cell" in a name stands for the 32-bit memory operand at `rbx`.
Short immediates are sign extended by the processor to the width of the operation.
-/

inductive Instruction where
  | pushRbp
  | movRbpRsp
  | pushRbx
  | pushR12
  | movRbxRdi
  | movR12Rsi
  | popR12
  | popRbx
  | popRbp
  | ret
  | addRbxImm8 (value : Int8)
  | addRbxImm32 (value : Int32)
  | movRaxImm64 (value : UInt64)
  | addRbxRax
  | addCellImm8 (value : Int8)
  | addCellImm32 (value : Int32)
  | movCellImm32 (value : Int32)
  | movRdiR12
  | movEsiCell
  | movCellEax
  | callRax
  | cmpCellImm8 (value : Int8)
  | jz (displacement : Int32)
  | jmp (displacement : Int32)
deriving DecidableEq, Repr

namespace Instruction

def encode : Instruction → List UInt8
  | .pushRbp => [0x55]
  | .movRbpRsp => [0x48, 0x89, 0xe5]
  | .pushRbx => [0x53]
  | .pushR12 => [0x41, 0x54]
  | .movRbxRdi => [0x48, 0x89, 0xfb]
  | .movR12Rsi => [0x49, 0x89, 0xf4]
  | .popR12 => [0x41, 0x5c]
  | .popRbx => [0x5b]
  | .popRbp => [0x5d]
  | .ret => [0xc3]
  | .addRbxImm8 value => [0x48, 0x83, 0xc3, value.toUInt8]
  | .addRbxImm32 value => [0x48, 0x81, 0xc3] ++ bytes32 value.toUInt32
  | .movRaxImm64 value => [0x48, 0xb8] ++ bytes64 value
  | .addRbxRax => [0x48, 0x01, 0xc3]
  | .addCellImm8 value => [0x83, 0x03, value.toUInt8]
  | .addCellImm32 value => [0x81, 0x03] ++ bytes32 value.toUInt32
  | .movCellImm32 value => [0xc7, 0x03] ++ bytes32 value.toUInt32
  | .movRdiR12 => [0x4c, 0x89, 0xe7]
  | .movEsiCell => [0x8b, 0x33]
  | .movCellEax => [0x89, 0x03]
  | .callRax => [0xff, 0xd0]
  | .cmpCellImm8 value => [0x83, 0x3b, value.toUInt8]
  | .jz displacement => [0x0f, 0x84] ++ bytes32 displacement.toUInt32
  | .jmp displacement => [0xe9] ++ bytes32 displacement.toUInt32

def size (instruction : Instruction) : Nat :=
  instruction.encode.length

end Instruction

def encodeAll (instructions : List Instruction) : List UInt8 :=
  instructions.flatMap Instruction.encode

end Tapewright.X86
