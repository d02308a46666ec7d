import Tapewright.X86.Machine

namespace Tapewright.X86

/-! Regions of flat memory.

Addresses wrap around, so a region is given by its first address and its length, and an
address lies in it when its distance from the first one is less than the length.
-/

/-- The address is one of so many that start at `base`. -/
def Within (base : UInt64) (length : Nat) (address : UInt64) : Prop :=
  (address - base).toNat < length

namespace Memory

variable {memory other : Memory}

theorem storeBytes_apply {bytes : List UInt8} (short : bytes.length ≤ 0x10000000000000000) (address place : UInt64) :
    memory.storeBytes address bytes place =
      (bytes[(place - address).toNat]?).getD (memory place) := by
  induction bytes generalizing memory address with
  | nil => rfl
  | cons byte rest ih =>
      rw [List.length_cons] at short
      rw [storeBytes, ih (by omega)]
      have below := place.toNat_lt
      have start := address.toNat_lt
      by_cases same : place = address
      · subst same
        have far : (place - (place + 1)).toNat = 0x10000000000000000 - 1 := by
          simp only [UInt64.toNat_sub, UInt64.toNat_add, UInt64.toNat_one]
          omega
        rw [far, List.getElem?_eq_none (by omega)]
        simp
      · have apart : place.toNat ≠ address.toNat := fun equal => same (UInt64.toNat_inj.mp equal)
        have next : (place - address).toNat = (place - (address + 1)).toNat + 1 := by
          simp only [UInt64.toNat_sub, UInt64.toNat_add, UInt64.toNat_one]
          omega
        rw [next, List.getElem?_cons_succ, if_neg same]

theorem storeBytes_of_not_within {bytes : List UInt8} {address place : UInt64}
    (short : bytes.length ≤ 0x10000000000000000) (outside : ¬ Within address bytes.length place) :
    memory.storeBytes address bytes place = memory place := by
  rw [storeBytes_apply short, List.getElem?_eq_none (Nat.not_lt.mp outside), Option.getD_none]

theorem load32_store32 (memory : Memory) (address : UInt64) (word : UInt32) :
    (memory.store32 address word).load32 address = word := by
  have distance (lane : UInt64) : address + lane - address = lane := by
    rw [UInt64.add_comm, UInt64.add_sub_cancel]
  simp only [load32, store32, storeBytes_apply (show (bytes32 word).length ≤ 0x10000000000000000 by simp),
    distance, UInt64.sub_self]
  exact word32_bytes32 word

theorem load64_store64 (memory : Memory) (address word : UInt64) :
    (memory.store64 address word).load64 address = word := by
  have distance (lane : UInt64) : address + lane - address = lane := by
    rw [UInt64.add_comm, UInt64.add_sub_cancel]
  simp only [load64, load32, store64, storeBytes_apply (show (bytes64 word).length ≤ 0x10000000000000000 by simp),
    UInt64.add_assoc, distance, UInt64.sub_self]
  have low := word32_bytes32 (UInt32.ofNat word.toNat)
  have high := word32_bytes32 (UInt32.ofNat (word.toNat / 4294967296))
  have whole := word64_halves word
  rw [← low, ← high] at whole
  exact whole

theorem load32_congr {address : UInt64}
    (same : ∀ place, Within address 4 place → other place = memory place) :
    other.load32 address = memory.load32 address := by
  have inside (lane : UInt64) (bound : lane.toNat < 4) : Within address 4 (address + lane) := by
    rw [Within, UInt64.add_comm, UInt64.add_sub_cancel]
    exact bound
  have first := same address (by simp [Within])
  have second := same _ (inside 1 (by decide))
  have third := same _ (inside 2 (by decide))
  have fourth := same _ (inside 3 (by decide))
  simp only [load32, first, second, third, fourth]

theorem load64_congr {address : UInt64}
    (same : ∀ place, Within address 8 place → other place = memory place) :
    other.load64 address = memory.load64 address := by
  have low : other.load32 address = memory.load32 address :=
    load32_congr fun place inside => same place (Nat.lt_trans inside (by decide))
  have high : other.load32 (address + 4) = memory.load32 (address + 4) := by
    refine load32_congr fun place inside => same place ?_
    have bound := place.toNat_lt
    have start := address.toNat_lt
    simp only [Within, UInt64.toNat_sub, UInt64.toNat_add, UInt64.reduceToNat] at inside ⊢
    omega
  rw [load64, load64, low, high]

end Memory

/-- Where the cell under a pointer is, for a tape that starts at `base`. -/
def cellAddress (base pointer : UInt64) : UInt64 :=
  base + 4 * pointer

section Cells

variable {base pointer another place : UInt64} {size : Nat}

theorem Within.of_cell (room : 4 * size ≤ 0x10000000000000000) (inside : pointer.toNat < size)
    (within : Within (cellAddress base pointer) 4 place) : Within base (4 * size) place := by
  have bound := place.toNat_lt
  have start := base.toNat_lt
  simp only [Within, cellAddress, UInt64.toNat_sub, UInt64.toNat_add, UInt64.toNat_mul,
    UInt64.reduceToNat] at within ⊢
  omega

theorem not_within_cell (room : 4 * size ≤ 0x10000000000000000) (inside : pointer.toNat < size)
    (alsoInside : another.toNat < size) (different : pointer ≠ another)
    (within : Within (cellAddress base pointer) 4 place) :
    ¬ Within (cellAddress base another) 4 place := by
  have apart : pointer.toNat ≠ another.toNat := fun same => different (UInt64.toNat_inj.mp same)
  have bound := place.toNat_lt
  have start := base.toNat_lt
  simp only [Within, cellAddress, UInt64.toNat_sub, UInt64.toNat_add, UInt64.toNat_mul,
    UInt64.reduceToNat] at within ⊢
  omega

end Cells

def HoldsTape (base : UInt64) (memory : Memory) (tape : Tape) : Prop :=
  ∀ pointer cell, tape.get? pointer = some cell →
    memory.load32 (cellAddress base pointer) = cell.toUInt32

theorem lt_size_of_get? {tape : Tape} {pointer : UInt64} {cell : Int32}
    (found : tape.get? pointer = some cell) : pointer.toNat < tape.size :=
  (Tape.get?_eq_some_iff.mp found).1

namespace HoldsTape

variable {base pointer : UInt64} {memory other : Memory} {tape : Tape} {cell : Int32}

theorem congr (holds : HoldsTape base memory tape) (room : 4 * tape.size ≤ 0x10000000000000000)
    (same : ∀ place, Within base (4 * tape.size) place → other place = memory place) :
    HoldsTape base other tape := by
  intro pointer cell found
  have inside := lt_size_of_get? found
  rw [← holds pointer cell found]
  exact Memory.load32_congr fun place within => same place (within.of_cell room inside)

theorem store (holds : HoldsTape base memory tape) (room : 4 * tape.size ≤ 0x10000000000000000)
    (found : tape.get? pointer = some cell) (value : Int32) :
    HoldsTape base (memory.store32 (cellAddress base pointer) value.toUInt32)
      (tape.set pointer value) := by
  intro another stored anotherFound
  by_cases same : another = pointer
  · subst same
    rw [Tape.get?_set_self found] at anotherFound
    cases anotherFound
    exact Memory.load32_store32 ..
  · rw [Tape.get?_set_ne (Ne.symm same)] at anotherFound
    rw [← holds another stored anotherFound]
    refine Memory.load32_congr fun place within => ?_
    exact Memory.storeBytes_of_not_within (by simp)
      (not_within_cell room (lt_size_of_get? anotherFound) (lt_size_of_get? found) same within)

end HoldsTape

end Tapewright.X86
