import Tapewright.Proofs.MachineBlocks

namespace Tapewright.X86

open Machine

/-! Entering and leaving native code.

The prologue pushes three registers below the return address and sets up the registers of the
body; the epilogue takes the same three words off the stack again and returns.  In between
nothing writes to the frame.
-/

/-- The machine at the entry of native code: its arguments, and the tape in memory. -/
structure Setup (side : HostSide) (context base : UInt64) (tape : Tape) (host : Host)
    (entry : Machine) : Prop extends Ready side base tape.size entry where
  position : entry.position = 0
  rdi : entry.registers.rdi = base
  rsi : entry.registers.rsi = context
  host : entry.host = host
  holds : HoldsTape base entry.memory tape

/-- What the caller finds after native code has returned. -/
structure Restored (entry last : Machine) : Prop where
  rbx : last.registers.rbx = entry.registers.rbx
  rbp : last.registers.rbp = entry.registers.rbp
  r12 : last.registers.r12 = entry.registers.r12
  rsp : last.registers.rsp = entry.registers.rsp + 8
  back : last.memory.load64 entry.registers.rsp = entry.memory.load64 entry.registers.rsp

section Slots

variable {top upper lower place : UInt64} {memory : Memory}

theorem not_within_slot (order : upper.toNat + 8 ≤ lower.toNat) (bound : lower.toNat ≤ 24)
    (within : Within (top - upper) 8 place) : ¬ Within (top - lower) 8 place := by
  have start := top.toNat_lt
  have there := place.toNat_lt
  simp only [Within, UInt64.toNat_sub] at within ⊢
  omega

theorem load64_pushed (order : upper.toNat + 8 ≤ lower.toNat) (bound : lower.toNat ≤ 24)
    (word : UInt64) :
    (memory.store64 (top - lower) word).load64 (top - upper) = memory.load64 (top - upper) := by
  refine Memory.load64_congr fun place within => ?_
  exact Memory.storeBytes_of_not_within (by simp) (not_within_slot order bound within)

theorem pushed_of_not_within (bound : lower.toNat ≤ 24) (word : UInt64)
    (outside : ¬ Within (top - 24) 32 place) :
    memory.store64 (top - lower) word place = memory place :=
  Memory.storeBytes_of_not_within (by simp) fun within => outside (within.of_slot bound)

end Slots

def pushedMemory (entry : Machine) : Memory :=
  ((entry.memory.store64 (entry.registers.rsp - 8) entry.registers.rbp).store64
    (entry.registers.rsp - 16) entry.registers.rbx).store64
      (entry.registers.rsp - 24) entry.registers.r12

theorem saved_pushedMemory (entry : Machine) : Saved entry (pushedMemory entry) := by
  have above {memory : Memory} {lower : UInt64} (order : 8 ≤ lower.toNat) (bound : lower.toNat ≤ 24)
      (word : UInt64) : (memory.store64 (entry.registers.rsp - lower) word).load64
        entry.registers.rsp = memory.load64 entry.registers.rsp := by
    have pushed := @load64_pushed entry.registers.rsp 0 lower memory (by simpa using order) bound word
    rwa [UInt64.sub_zero] at pushed
  refine ⟨?_, ?_, ?_, ?_⟩
  · exact Memory.load64_store64 ..
  · rw [pushedMemory, load64_pushed (by decide) (by decide)]
    exact Memory.load64_store64 ..
  · rw [pushedMemory, load64_pushed (by decide) (by decide), load64_pushed (by decide) (by decide)]
    exact Memory.load64_store64 ..
  · rw [pushedMemory, above (by decide) (by decide), above (by decide) (by decide),
      above (by decide) (by decide)]

theorem pushedMemory_of_not_within {entry : Machine} {place : UInt64}
    (outside : ¬ Within (entry.registers.rsp - 24) 32 place) :
    pushedMemory entry place = entry.memory place := by
  rw [pushedMemory, pushed_of_not_within (by decide) _ outside,
    pushed_of_not_within (by decide) _ outside, pushed_of_not_within (by decide) _ outside]

section Calls

variable {code : List UInt8} {side : HostSide} {context base : UInt64} {tape : Tape} {host : Host}
  {size : Nat} {entry machine : Machine} {state : Native.State}

theorem enter (setup : Setup side context base tape host entry)
    (loaded : CodeAt code 0 prologue) :
    ∃ first, Path code side context (·.position < (encodeAll prologue).length) 6 entry first ∧
      Shows entry base context tape.size (.start tape host) first ∧
      first.position = (encodeAll prologue).length := by
  have second : entry.registers.rsp - 8 - 8 = entry.registers.rsp - 16 := by
    grind
  have third : entry.registers.rsp - 16 - 8 = entry.registers.rsp - 24 := by
    grind
  refine ⟨_, .cons ?_ (step_of_codeAt loaded setup.position rfl) <|
    .cons ?_ (step_of_codeAt loaded.tail rfl rfl) <|
    .cons ?_ (step_of_codeAt loaded.tail.tail rfl rfl) <|
    .cons ?_ (step_of_codeAt loaded.tail.tail.tail rfl rfl) <|
    .cons ?_ (step_of_codeAt loaded.tail.tail.tail.tail rfl rfl) <|
    .cons ?_ (step_of_codeAt loaded.tail.tail.tail.tail.tail rfl rfl) .nil, ?_, rfl⟩
  · exact setup.position ▸ (by decide : 0 < 13)
  · exact (by decide : 1 < 13)
  · exact (by decide : 4 < 13)
  · exact (by decide : 5 < 13)
  · exact (by decide : 7 < 13)
  · exact (by decide : 10 < 13)
  · have memory : ((entry.memory.store64 (entry.registers.rsp - 8) entry.registers.rbp).store64
        (entry.registers.rsp - 8 - 8) entry.registers.rbx).store64
        (entry.registers.rsp - 8 - 8 - 8) entry.registers.r12 = pushedMemory entry := by
      rw [second, third]
      rfl
    refine ⟨⟨?_, setup.rsi, ?_⟩, setup.host, ?_, rfl, ?_⟩
    · show entry.registers.rdi = cellAddress base 0
      rw [setup.rdi, cellAddress, UInt64.mul_zero, UInt64.add_zero]
    · show entry.registers.rsp - 8 - 8 - 8 = entry.registers.rsp - 24
      rw [second, third]
    · refine setup.holds.congr setup.room fun place within => ?_
      exact (congrFun memory place).trans (pushedMemory_of_not_within (setup.apart place within))
    · have saved := saved_pushedMemory entry
      rw [← memory] at saved
      exact saved

theorem leave (shows : Shows entry base context size state machine)
    (loaded : CodeAt code machine.position epilogue) :
    ∃ final last, Path code side context (machine.position ≤ ·.position) 3 machine final ∧
      machine.position ≤ final.position ∧ final.step code side context = .returned last ∧
      Restored entry last ∧ last.position = machine.position + (encodeAll epilogue).length ∧
      last.memory = machine.memory ∧ last.host = machine.host := by
  have second : machine.registers.rsp + 8 = entry.registers.rsp - 16 := by
    rw [shows.rsp]
    grind
  have third : entry.registers.rsp - 16 + 8 = entry.registers.rsp - 8 := by
    grind
  have top : entry.registers.rsp - 8 + 8 = entry.registers.rsp := by
    grind
  refine ⟨_, _, .cons (Nat.le_refl _) (step_of_codeAt loaded rfl rfl) <|
    .cons ?_ (step_of_codeAt loaded.tail rfl rfl) <|
    .cons ?_ (step_of_codeAt loaded.tail.tail rfl rfl) .nil,
    ?_, step_of_codeAt loaded.tail.tail.tail rfl rfl, ⟨?_, ?_, ?_, ?_, shows.saved.back⟩, rfl, rfl, rfl⟩
  · exact Nat.le_add_right _ 2
  · exact Nat.le_add_right _ 3
  · exact Nat.le_add_right _ 4
  · show machine.memory.load64 (machine.registers.rsp + 8) = entry.registers.rbx
    rw [second, shows.saved.rbx]
  · show machine.memory.load64 (machine.registers.rsp + 8 + 8) = entry.registers.rbp
    rw [second, third, shows.saved.rbp]
  · show machine.memory.load64 machine.registers.rsp = entry.registers.r12
    rw [shows.rsp, shows.saved.r12]
  · show machine.registers.rsp + 8 + 8 + 8 + 8 = entry.registers.rsp + 8
    rw [second, third, top]

end Calls

end Tapewright.X86
