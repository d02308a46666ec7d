import Tapewright.Proofs.MachineRun
import Tapewright.Proofs.Words

namespace Tapewright.X86

open Machine

/-! The blocks of single ops.

Between two ops the registers and the memory show the state of the op-level run: `rbx` is the
address of the current cell, the tape stands at its base, and the saved registers are in the
frame below the return address.  Each block leads from what shows a state to what shows the
next one, and until its last instruction `rbx` does not move.
-/

structure Saved (entry : Machine) (memory : Memory) : Prop where
  r12 : memory.load64 (entry.registers.rsp - 24) = entry.registers.r12
  rbx : memory.load64 (entry.registers.rsp - 16) = entry.registers.rbx
  rbp : memory.load64 (entry.registers.rsp - 8) = entry.registers.rbp
  back : memory.load64 entry.registers.rsp = entry.memory.load64 entry.registers.rsp

/-- What a call of native code relies on besides its arguments.  The tape fits the address
space, it has no byte in the frame, and the host functions leave both alone. -/
structure Ready (side : HostSide) (base : UInt64) (size : Nat) (entry : Machine) : Prop where
  aligned : entry.registers.rsp % 16 = 8
  functions : side.addresses.putCell ≠ side.addresses.getCell
  room : 4 * size ≤ 0x10000000000000000
  apart : ∀ place, Within base (4 * size) place → ¬ Within (entry.registers.rsp - 24) 32 place
  kept : ∀ place, side.scratch place = true →
    ¬ Within base (4 * size) place ∧ ¬ Within (entry.registers.rsp - 24) 32 place

/-- The registers inside the body of the code, with the data pointer at some cell. -/
structure InBody (entry : Machine) (base context pointer : UInt64) (machine : Machine) : Prop where
  rbx : machine.registers.rbx = cellAddress base pointer
  r12 : machine.registers.r12 = context
  rsp : machine.registers.rsp = entry.registers.rsp - 24

/-- The machine shows a state of the op-level run. -/
structure Shows (entry : Machine) (base context : UInt64) (size : Nat) (state : Native.State)
    (machine : Machine) : Prop extends InBody entry base context state.pointer machine where
  host : machine.host = state.host
  holds : HoldsTape base machine.memory state.tape
  size : state.tape.size = size
  saved : Saved entry machine.memory

theorem Within.of_slot {top offset place : UInt64} (bound : offset.toNat ≤ 24)
    (within : Within (top - offset) 8 place) : Within (top - 24) 32 place := by
  have start := top.toNat_lt
  have there := place.toNat_lt
  simp only [Within, UInt64.toNat_sub, UInt64.reduceToNat] at within ⊢
  omega

theorem Saved.congr {entry : Machine} {memory other : Memory} (saved : Saved entry memory)
    (same : ∀ place, Within (entry.registers.rsp - 24) 32 place → other place = memory place) :
    Saved entry other := by
  have slot (offset : UInt64) (bound : offset.toNat ≤ 24) :
      other.load64 (entry.registers.rsp - offset) = memory.load64 (entry.registers.rsp - offset) :=
    Memory.load64_congr fun place within => same place (within.of_slot bound)
  have top := slot 0 (by decide)
  rw [UInt64.sub_zero] at top
  exact ⟨(slot 24 (by decide)).trans saved.r12, (slot 16 (by decide)).trans saved.rbx,
    (slot 8 (by decide)).trans saved.rbp, top.trans saved.back⟩

section Immediates

theorem toInt_displacement {field target : Nat} (near : field + 4 < 0x80000000) (close : target < 0x80000000) :
    (displacement field target).toInt = (target : Int) - (field + 4 : Nat) :=
  Int32.toInt_ofInt_of_le (by omega) (by omega)

/-- The low half of a register whose upper half is left over from before. -/
theorem low_half (old : UInt64) (value : UInt32) :
    (old >>> 32 <<< 32 ||| value.toUInt64).toUInt32 = value := by
  have upper : (old >>> 32 <<< 32).toUInt32 = 0 := by
    apply UInt32.toBitVec_inj.mp
    apply BitVec.eq_of_getLsbD_eq
    intro bit bound
    simp
  rw [UInt64.toUInt32_or, upper, UInt32.zero_or, UInt32.toUInt32_toUInt64]

end Immediates

section Blocks

variable {code : List UInt8} {side : HostSide} {context base : UInt64} {size : Nat}
  {entry machine : Machine} {state : Native.State} {cell : Int32}

theorem Shows.cell_eq (shows : Shows entry base context size state machine)
    (found : state.tape.get? state.pointer = some cell) : machine.cell = cell.toUInt32 := by
  rw [Machine.cell, shows.rbx]
  exact shows.holds _ _ found

theorem Shows.stored (shows : Shows entry base context size state machine)
    (ready : Ready side base size entry) (found : state.tape.get? state.pointer = some cell)
    {value : Int32} {other : Machine} {index : Nat} {host : Host}
    (body : InBody entry base context state.pointer other) (sameHost : other.host = host)
    (memory : other.memory = machine.memory.store32 machine.registers.rbx value.toUInt32) :
    Shows entry base context size
      { state with tape := state.tape.set state.pointer value, host, index } other := by
  have room : 4 * state.tape.size ≤ 0x10000000000000000 := shows.size ▸ ready.room
  have inside : state.pointer.toNat < size := shows.size ▸ lt_size_of_get? found
  rw [shows.rbx] at memory
  refine ⟨body, sameHost, ?_, (Tape.size_set ..).trans shows.size, ?_⟩
  · rw [memory]
    exact shows.holds.store room found value
  · rw [memory]
    refine shows.saved.congr fun place frame => ?_
    refine Memory.storeBytes_of_not_within (by simp) fun within => ?_
    exact ready.apart place (within.of_cell ready.room inside) frame

/-- A block of instructions leads from one state to another. -/
def Leads (code : List UInt8) (side : HostSide) (context : UInt64) (entry : Machine) (base : UInt64)
    (size : Nat) (state next : Native.State) (position : Nat) (machine : Machine) : Prop :=
  ∃ count last, Path code side context (InBody entry base context state.pointer) (count + 1)
      machine last ∧
    Shows entry base context size next last ∧ last.position = position

theorem addPointer_leads (shows : Shows entry base context size state machine) {bytes : Int64}
    {pointer : UInt64} (moved : machine.registers.rbx + bytes.toUInt64 = cellAddress base pointer)
    (loaded : CodeAt code machine.position (addPointer bytes)) (index : Nat) :
    Leads code side context entry base size state { state with pointer, index }
      (machine.position + (encodeAll (addPointer bytes)).length) machine := by
  unfold addPointer at loaded ⊢
  split at loaded
  · rename_i short
    rw [if_pos short]
    refine ⟨0, _, .cons shows.toInBody (step_of_codeAt loaded rfl rfl) .nil, ?_, rfl⟩
    refine ⟨⟨?_, shows.r12, shows.rsp⟩, shows.host, shows.holds, shows.size, shows.saved⟩
    show machine.registers.rbx + bytes.toInt8.toInt64.toUInt64 = cellAddress base pointer
    rw [toInt64_toInt8 short.1 short.2, moved]
  · rename_i long
    rw [if_neg long]
    split at loaded
    · rename_i short
      rw [if_pos short]
      refine ⟨0, _, .cons shows.toInBody (step_of_codeAt loaded rfl rfl) .nil, ?_, rfl⟩
      refine ⟨⟨?_, shows.r12, shows.rsp⟩, shows.host, shows.holds, shows.size, shows.saved⟩
      show machine.registers.rbx + bytes.toInt32.toInt64.toUInt64 = cellAddress base pointer
      rw [toInt64_toInt32 short.1 short.2, moved]
    · rename_i long
      rw [if_neg long]
      refine ⟨1, _, .cons shows.toInBody (step_of_codeAt loaded rfl rfl) <|
        .cons ⟨shows.rbx, shows.r12, shows.rsp⟩ (step_of_codeAt loaded.tail rfl rfl) .nil, ?_, ?_⟩
      · exact ⟨⟨moved, shows.r12, shows.rsp⟩, shows.host, shows.holds, shows.size, shows.saved⟩
      · rfl

theorem addCell_leads (shows : Shows entry base context size state machine)
    (ready : Ready side base size entry) (found : state.tape.get? state.pointer = some cell)
    {value : Int32} (loaded : CodeAt code machine.position (addCell value)) (index : Nat) :
    Leads code side context entry base size state
      { state with tape := state.tape.set state.pointer (cell + value), index }
      (machine.position + (encodeAll (addCell value)).length) machine := by
  have sum : (cell + value).toUInt32 = machine.cell + value.toUInt32 := by
    rw [shows.cell_eq found, Int32.toUInt32_add]
  unfold addCell at loaded ⊢
  split at loaded
  · rename_i short
    rw [if_pos short]
    refine ⟨0, _, .cons shows.toInBody (step_of_codeAt loaded rfl rfl) .nil, ?_, rfl⟩
    refine shows.stored ready found ⟨shows.rbx, shows.r12, shows.rsp⟩ shows.host ?_
    rw [sum, ← congrArg Int32.toUInt32 (toInt32_toInt8 short.1 short.2)]
    rfl
  · rename_i long
    rw [if_neg long]
    refine ⟨0, _, .cons shows.toInBody (step_of_codeAt loaded rfl rfl) .nil, ?_, rfl⟩
    refine shows.stored ready found ⟨shows.rbx, shows.r12, shows.rsp⟩ shows.host ?_
    rw [sum]
    rfl

theorem storeCell_leads (shows : Shows entry base context size state machine)
    (ready : Ready side base size entry) (found : state.tape.get? state.pointer = some cell)
    {value : Int32} (loaded : CodeAt code machine.position (storeCell value)) (index : Nat) :
    Leads code side context entry base size state
      { state with tape := state.tape.set state.pointer value, index }
      (machine.position + (encodeAll (storeCell value)).length) machine := by
  refine ⟨0, _, .cons shows.toInBody (step_of_codeAt loaded rfl rfl) .nil, ?_, rfl⟩
  exact shows.stored ready found ⟨shows.rbx, shows.r12, shows.rsp⟩ shows.host rfl

theorem InBody.aligned {pointer : UInt64} (body : InBody entry base context pointer machine)
    (ready : Ready side base size entry) : machine.registers.rsp % 16 = 0 := by
  have remainder := congrArg UInt64.toNat ready.aligned
  have bound := entry.registers.rsp.toNat_lt
  rw [body.rsp]
  apply UInt64.toNat_inj.mp
  simp only [UInt64.toNat_mod, UInt64.toNat_sub, UInt64.reduceToNat] at remainder ⊢
  omega

/-- A host function leaves everything alone that a state is shown by, but for the host. -/
theorem Shows.called (shows : Shows entry base context size state machine)
    (ready : Ready side base size entry) {other : Machine} {left : Memory} {host : Host} {index : Nat}
    (body : InBody entry base context state.pointer other) (sameHost : other.host = host)
    (memory : other.memory = fun place =>
      if side.scratch place then left place else machine.memory place) :
    Shows entry base context size { state with host, index } other := by
  have same (place : UInt64) (kept : side.scratch place = true → False) :
      other.memory place = machine.memory place := by
    rw [memory]
    exact if_neg kept
  refine ⟨body, sameHost, ?_, shows.size, ?_⟩
  · refine shows.holds.congr (shows.size ▸ ready.room) fun place within => same place fun scratch => ?_
    rw [shows.size] at within
    exact (ready.kept place scratch).1 within
  · exact shows.saved.congr fun place within => same place fun scratch =>
      (ready.kept place scratch).2 within

theorem callHost_put (aligned : machine.registers.rsp % 16 = 0)
    (argument : machine.registers.rdi = context)
    (function : machine.registers.rax = side.addresses.putCell) :
    machine.callHost side context = .running { machine.afterCall side.scratch (side.leftovers machine) with
      host := machine.host.putCell machine.registers.rsi.toUInt32.toInt32 } := by
  simp only [callHost, aligned, argument, function, ne_eq, not_true_eq_false, or_self, ↓reduceIte]

theorem callWithCell_leads (shows : Shows entry base context size state machine)
    (ready : Ready side base size entry) (found : state.tape.get? state.pointer = some cell)
    (loaded : CodeAt code machine.position (callWithCell side.addresses.putCell)) (index : Nat) :
    Leads code side context entry base size state
      { state with host := state.host.putCell cell, index }
      (machine.position + (encodeAll (callWithCell side.addresses.putCell)).length) machine := by
  have body : InBody entry base context state.pointer machine := shows.toInBody
  have passed : machine.cell.toUInt64.toUInt32.toInt32 = cell := by
    rw [UInt32.toUInt32_toUInt64, shows.cell_eq found, Int32.toInt32_toUInt32]
  refine ⟨3, _, .cons body (step_of_codeAt loaded rfl rfl) <|
    .cons ⟨body.rbx, body.r12, body.rsp⟩ (step_of_codeAt loaded.tail rfl rfl) <|
    .cons ⟨body.rbx, body.r12, body.rsp⟩ (step_of_codeAt loaded.tail.tail rfl rfl) <|
    .cons ⟨body.rbx, body.r12, body.rsp⟩ (step_of_codeAt loaded.tail.tail.tail rfl
      (callHost_put (body.aligned ready) body.r12 rfl)) .nil, ?_, ?_⟩
  · refine shows.called ready ⟨body.rbx, body.r12, body.rsp⟩ ?_ rfl
    show machine.host.putCell machine.cell.toUInt64.toUInt32.toInt32 = state.host.putCell cell
    rw [passed, shows.host]
  · rfl

theorem callHost_get (ready : Ready side base size entry)
    (aligned : machine.registers.rsp % 16 = 0) (argument : machine.registers.rdi = context)
    (function : machine.registers.rax = side.addresses.getCell) :
    machine.callHost side context = .running { machine.afterCall side.scratch (side.leftovers machine) with
      host := machine.host.getCell.2
      registers :=
        { (machine.afterCall side.scratch (side.leftovers machine)).registers with
          rax := (side.leftovers machine).rax >>> 32 <<< 32 |||
            machine.host.getCell.1.toUInt32.toUInt64 } } := by
  simp only [callHost, aligned, argument, function, ready.functions.symm, ne_eq, not_true_eq_false,
    or_self, ↓reduceIte]
  rfl

theorem callIntoCell_leads (shows : Shows entry base context size state machine)
    (ready : Ready side base size entry) (found : state.tape.get? state.pointer = some cell)
    (loaded : CodeAt code machine.position (callIntoCell side.addresses.getCell)) (index : Nat) :
    Leads code side context entry base size state
      { state with
        host := state.host.getCell.2
        tape := state.tape.set state.pointer state.host.getCell.1
        index }
      (machine.position + (encodeAll (callIntoCell side.addresses.getCell)).length) machine := by
  have body : InBody entry base context state.pointer machine := shows.toInBody
  -- The host has returned, and the cell is still to be stored.
  have returned : ∃ middle, Path code side context (InBody entry base context state.pointer) 3
      machine middle ∧
      Shows entry base context size { state with host := state.host.getCell.2 } middle ∧
      middle.registers.rax.toUInt32 = state.host.getCell.1.toUInt32 ∧
      middle.position + 2 = machine.position +
        (encodeAll (callIntoCell side.addresses.getCell)).length ∧
      CodeAt code middle.position [.movCellEax] := by
    refine ⟨_, .cons body (step_of_codeAt loaded rfl rfl) <|
      .cons ⟨body.rbx, body.r12, body.rsp⟩ (step_of_codeAt loaded.tail rfl rfl) <|
      .cons ⟨body.rbx, body.r12, body.rsp⟩ (step_of_codeAt loaded.tail.tail rfl
        (callHost_get ready (body.aligned ready) body.r12 rfl)) .nil, ?_, ?_, ?_, ?_⟩
    · exact shows.called ready ⟨body.rbx, body.r12, body.rsp⟩ (by rw [← shows.host]) rfl
    · rw [← shows.host]
      exact low_half ..
    · rfl
    · exact loaded.tail.tail.tail
  obtain ⟨middle, path, showsMiddle, value, position, store⟩ := returned
  have bodyMiddle : InBody entry base context state.pointer middle := showsMiddle.toInBody
  refine ⟨3, _, path.concat bodyMiddle (step_of_codeAt store rfl rfl), ?_, position⟩
  refine showsMiddle.stored ready found ⟨bodyMiddle.rbx, bodyMiddle.r12, bodyMiddle.rsp⟩
    showsMiddle.host ?_
  rw [← value]
  rfl

theorem jump_displacement {field target : Nat} (here : machine.position = field + 4)
    (near : field + 4 < 0x80000000) (close : target < 0x80000000) :
    machine.jump (displacement field target) = .running { machine with position := target } := by
  have sum : (machine.position : Int) + (displacement field target).toInt = target := by
    rw [toInt_displacement near close, here]
    omega
  simp only [jump, sum, Int.natCast_nonneg, ↓reduceIte, Int.toNat_natCast]

theorem jumpBack_leads (shows : Shows entry base context size state machine) {target : Nat}
    (loaded : CodeAt code machine.position [.jmp (displacement (machine.position + 1) target)])
    (near : machine.position + 5 < 0x80000000) (close : target < 0x80000000) (index : Nat) :
    Leads code side context entry base size state { state with index } target machine := by
  have body : InBody entry base context state.pointer machine := shows.toInBody
  refine ⟨0, _, .cons body (step_of_codeAt loaded rfl (jump_displacement rfl near close)) .nil, ?_, rfl⟩
  exact ⟨⟨body.rbx, body.r12, body.rsp⟩, shows.host, shows.holds, shows.size, shows.saved⟩

theorem jumpIfZero_leads (shows : Shows entry base context size state machine)
    (found : state.tape.get? state.pointer = some cell) {target : Nat}
    (loaded : CodeAt code machine.position
      [.cmpCellImm8 0, .jz (displacement (machine.position + 5) target)])
    (near : machine.position + 9 < 0x80000000) (close : target < 0x80000000) (index : Nat) :
    Leads code side context entry base size state { state with index }
      (if cell = 0 then target else machine.position + 9) machine := by
  have body : InBody entry base context state.pointer machine := shows.toInBody
  have tested : machine.cell = Int32.toUInt32 (Int8.toInt32 0) ↔ cell = 0 := by
    rw [shows.cell_eq found]
    exact toUInt32_eq_zero
  by_cases zero : cell = 0
  · have flag : (machine.cell == Int32.toUInt32 (Int8.toInt32 0)) = true := beq_iff_eq.mpr (tested.mpr zero)
    rw [if_pos zero]
    refine ⟨1, _, .cons body (step_of_codeAt loaded rfl rfl) <|
      .cons ⟨body.rbx, body.r12, body.rsp⟩ (step_of_codeAt loaded.tail rfl
        ((if_pos flag).trans (jump_displacement rfl near close))) .nil, ?_, rfl⟩
    exact ⟨⟨body.rbx, body.r12, body.rsp⟩, shows.host, shows.holds, shows.size, shows.saved⟩
  · have flag : ¬ (machine.cell == Int32.toUInt32 (Int8.toInt32 0)) = true := fun same =>
      zero (tested.mp (beq_iff_eq.mp same))
    rw [if_neg zero]
    refine ⟨1, _, .cons body (step_of_codeAt loaded rfl rfl) <|
      .cons ⟨body.rbx, body.r12, body.rsp⟩ (step_of_codeAt loaded.tail rfl (if_neg flag)) .nil,
      ?_, rfl⟩
    exact ⟨⟨body.rbx, body.r12, body.rsp⟩, shows.host, shows.holds, shows.size, shows.saved⟩

end Blocks

end Tapewright.X86
