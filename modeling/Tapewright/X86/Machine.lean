import Tapewright.Native
import Tapewright.X86.Code
import Tapewright.X86.Decode

namespace Tapewright.X86

/-! A processor for the instruction forms of native code.

Memory is flat and byte addressed; code is kept apart from it and never changes.
A host function does its work on the host and may leave anything behind in the
registers a callee need not keep and in the memory it may use freely.  Calls demand
a stack aligned to 16 bytes; a processor that meets anything else it cannot do is
stuck.
-/

abbrev Memory :=
  UInt64 → UInt8

namespace Memory

def load32 (memory : Memory) (address : UInt64) : UInt32 :=
  word32 (memory address) (memory (address + 1)) (memory (address + 2)) (memory (address + 3))

def load64 (memory : Memory) (address : UInt64) : UInt64 :=
  word64 (memory.load32 address) (memory.load32 (address + 4))

def storeBytes (memory : Memory) (address : UInt64) : List UInt8 → Memory
  | [] => memory
  | byte :: rest =>
      storeBytes (fun place => if place = address then byte else memory place) (address + 1) rest

def store32 (memory : Memory) (address : UInt64) (word : UInt32) : Memory :=
  memory.storeBytes address (bytes32 word)

def store64 (memory : Memory) (address : UInt64) (word : UInt64) : Memory :=
  memory.storeBytes address (bytes64 word)

end Memory

structure Registers where
  rax : UInt64
  rbx : UInt64
  rbp : UInt64
  rsp : UInt64
  rsi : UInt64
  rdi : UInt64
  r12 : UInt64
deriving DecidableEq, Repr

structure Machine where
  /-- The code offset of the next instruction. -/
  position : Nat
  registers : Registers
  zeroFlag : Bool
  memory : Memory
  host : Host

/-- What a host function leaves behind besides its result. -/
structure Leftovers where
  rax : UInt64
  rsi : UInt64
  rdi : UInt64
  zeroFlag : Bool
  memory : Memory

/-- The host side of a run: where its functions are, the memory they may use freely, and
what each call leaves behind. -/
structure HostSide where
  addresses : HostAddresses
  scratch : UInt64 → Bool
  leftovers : Machine → Leftovers

inductive Progress where
  | running (machine : Machine)
  | returned (machine : Machine)
  | stuck

namespace Machine

def push (machine : Machine) (word : UInt64) : Machine :=
  let address := machine.registers.rsp - 8
  { machine with
    registers := { machine.registers with rsp := address }
    memory := machine.memory.store64 address word }

/-- The word on top of the stack, and the machine without it. -/
def pop (machine : Machine) : UInt64 × Machine :=
  let address := machine.registers.rsp
  (machine.memory.load64 address,
    { machine with registers := { machine.registers with rsp := address + 8 } })

/-- The 32-bit memory operand at `rbx`. -/
def cell (machine : Machine) : UInt32 :=
  machine.memory.load32 machine.registers.rbx

def storeCell (machine : Machine) (word : UInt32) : Machine :=
  { machine with memory := machine.memory.store32 machine.registers.rbx word }

/-- Add to the memory operand at `rbx`; the sum decides the zero flag. -/
def addToCell (machine : Machine) (word : UInt32) : Machine :=
  let sum := machine.cell + word
  { machine.storeCell sum with zeroFlag := sum == 0 }

/-- Add to `rbx`; the sum decides the zero flag. -/
def addToRbx (machine : Machine) (word : UInt64) : Machine :=
  let sum := machine.registers.rbx + word
  { machine with
    registers := { machine.registers with rbx := sum }
    zeroFlag := sum == 0 }

/-- The machine after a host function that left these things behind. -/
def afterCall (machine : Machine) (scratch : UInt64 → Bool) (left : Leftovers) : Machine :=
  { machine with
    registers :=
      { machine.registers with rax := left.rax, rsi := left.rsi, rdi := left.rdi }
    zeroFlag := left.zeroFlag
    memory := fun place => if scratch place then left.memory place else machine.memory place }

/-- Call the host function at the address in `rax`.  It gets the host context in `rdi` and a
cell in the low half of `rsi`, and returns a cell in the low half of `rax`.  The return address
that the call pushes is not written here: `scratch` and the leftovers cover it, like all else
that is left on the stack. -/
def callHost (side : HostSide) (context : UInt64) (machine : Machine) : Progress :=
  if machine.registers.rsp % 16 ≠ 0 ∨ machine.registers.rdi ≠ context then
    .stuck
  else
    let after := machine.afterCall side.scratch (side.leftovers machine)
    if machine.registers.rax = side.addresses.putCell then
      .running { after with
        host := machine.host.putCell machine.registers.rsi.toUInt32.toInt32 }
    else if machine.registers.rax = side.addresses.getCell then
      match machine.host.getCell with
      | (value, host) =>
          let high := after.registers.rax >>> 32 <<< 32
          .running { after with
            host
            registers :=
              { after.registers with rax := high ||| value.toUInt32.toUInt64 } }
    else
      .stuck

/-- A jump relative to the end of the instruction. -/
def jump (machine : Machine) (displacement : Int32) : Progress :=
  let target := (machine.position : Int) + displacement.toInt
  if 0 ≤ target then .running { machine with position := target.toNat } else .stuck

/-- Execute an instruction; the position is already behind it. -/
def execute (side : HostSide) (context : UInt64) (machine : Machine) : Instruction → Progress
  | .pushRbp => .running (machine.push machine.registers.rbp)
  | .pushRbx => .running (machine.push machine.registers.rbx)
  | .pushR12 => .running (machine.push machine.registers.r12)
  | .popR12 =>
      let (word, next) := machine.pop
      .running { next with registers := { next.registers with r12 := word } }
  | .popRbx =>
      let (word, next) := machine.pop
      .running { next with registers := { next.registers with rbx := word } }
  | .popRbp =>
      let (word, next) := machine.pop
      .running { next with registers := { next.registers with rbp := word } }
  | .ret => .returned machine.pop.2
  | .movRbpRsp =>
      .running { machine with
        registers := { machine.registers with rbp := machine.registers.rsp } }
  | .movRbxRdi =>
      .running { machine with
        registers := { machine.registers with rbx := machine.registers.rdi } }
  | .movR12Rsi =>
      .running { machine with
        registers := { machine.registers with r12 := machine.registers.rsi } }
  | .movRdiR12 =>
      .running { machine with
        registers := { machine.registers with rdi := machine.registers.r12 } }
  | .movRaxImm64 value =>
      .running { machine with registers := { machine.registers with rax := value } }
  | .movEsiCell =>
      .running { machine with
        registers := { machine.registers with rsi := machine.cell.toUInt64 } }
  | .movCellEax => .running (machine.storeCell machine.registers.rax.toUInt32)
  | .movCellImm32 value => .running (machine.storeCell value.toUInt32)
  | .addRbxImm8 value => .running (machine.addToRbx value.toInt64.toUInt64)
  | .addRbxImm32 value => .running (machine.addToRbx value.toInt64.toUInt64)
  | .addRbxRax => .running (machine.addToRbx machine.registers.rax)
  | .addCellImm8 value => .running (machine.addToCell value.toInt32.toUInt32)
  | .addCellImm32 value => .running (machine.addToCell value.toUInt32)
  | .cmpCellImm8 value =>
      .running { machine with zeroFlag := machine.cell == value.toInt32.toUInt32 }
  | .callRax => machine.callHost side context
  | .jz displacement =>
      if machine.zeroFlag then machine.jump displacement else .running machine
  | .jmp displacement => machine.jump displacement

def step (code : List UInt8) (side : HostSide) (context : UInt64) (machine : Machine) :
    Progress :=
  match decode? (code.drop machine.position) with
  | none => .stuck
  | some (instruction, rest) =>
      { machine with position := code.length - rest.length }.execute side context instruction

/-- Run until the code returns, for at most `fuel` instructions.  `none` when the fuel runs
out or the processor is stuck. -/
def run (code : List UInt8) (side : HostSide) (context : UInt64) :
    Nat → Machine → Option Machine
  | 0, _ => none
  | fuel + 1, machine =>
      match machine.step code side context with
      | .running next => run code side context fuel next
      | .returned last => some last
      | .stuck => none

end Machine

end Tapewright.X86
