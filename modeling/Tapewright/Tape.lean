import Tapewright.Stream.Input
import Tapewright.Stream.Output

namespace Tapewright

/-! The tape and the two transfers between a cell and a stream. -/

structure Tape where
  cells : Array Int32
deriving DecidableEq, Repr

namespace Tape

def standardSize : Nat := 30000

def zeroed (size : Nat) : Tape :=
  ⟨Array.replicate size 0⟩

def fresh : Tape :=
  zeroed standardSize

@[inline] def size (tape : Tape) : Nat :=
  tape.cells.size

/-- The cell under a pointer, if the pointer is on the tape. -/
@[inline] def get? (tape : Tape) (pointer : UInt64) : Option Int32 :=
  tape.cells[pointer.toNat]?

/-- Store a cell; a pointer off the tape changes nothing. -/
@[inline] def set (tape : Tape) (pointer : UInt64) (value : Int32) : Tape :=
  ⟨tape.cells.setIfInBounds pointer.toNat value⟩

@[simp] theorem size_zeroed (size : Nat) : (zeroed size).size = size := by
  simp [zeroed, Tape.size]

@[simp] theorem size_set (tape : Tape) (pointer : UInt64) (value : Int32) :
    (tape.set pointer value).size = tape.size := by
  simp [set, size]

theorem get?_eq_some_iff {tape : Tape} {pointer : UInt64} {cell : Int32} :
    tape.get? pointer = some cell ↔
      ∃ inside : pointer.toNat < tape.cells.size, tape.cells[pointer.toNat] = cell := by
  simp [get?, Array.getElem?_eq_some_iff]

/-- A pointer finds a cell exactly when it is on the tape. -/
theorem get?_eq_none_iff {tape : Tape} {pointer : UInt64} :
    tape.get? pointer = none ↔ tape.size ≤ pointer.toNat := by
  simp [get?, size]

theorem get?_set_self {tape : Tape} {pointer : UInt64} {cell value : Int32}
    (found : tape.get? pointer = some cell) :
    (tape.set pointer value).get? pointer = some value := by
  obtain ⟨inside, _⟩ := get?_eq_some_iff.mp found
  simp [get?, set, inside]

theorem get?_set_ne {tape : Tape} {pointer other : UInt64} {value : Int32}
    (different : pointer ≠ other) :
    (tape.set pointer value).get? other = tape.get? other := by
  have places : pointer.toNat ≠ other.toNat := fun same => different (UInt64.toNat_inj.mp same)
  simp [get?, set, places]

theorem set_of_get? {tape : Tape} {pointer : UInt64} {cell : Int32}
    (found : tape.get? pointer = some cell) : tape.set pointer cell = tape := by
  obtain ⟨inside, rfl⟩ := get?_eq_some_iff.mp found
  simp [set, Array.setIfInBounds, inside]

@[simp] theorem set_set (tape : Tape) (pointer : UInt64) (value other : Int32) :
    (tape.set pointer value).set pointer other = tape.set pointer other := by
  simp [set]

/-- The cells that are not zero, with their indices, in order. -/
def nonzero (tape : Tape) : List (Nat × Int32) :=
  (tape.cells.toList.zipIdx.filter (·.1 != 0)).map fun entry => (entry.2, entry.1)

end Tape

/-- What a cell holds after a read at the end of the input. -/
def endOfInputCell : Int32 := -1

/-- The byte a cell is written as: its low eight bits. -/
def cellByte (cell : Int32) : UInt8 :=
  cell.toUInt32.toUInt8

/-- The cell a byte is read as, never negative. -/
def byteCell (byte : UInt8) : Int32 :=
  byte.toUInt32.toInt32

def Input.getCell (input : Input) : Except Fault Int32 × Input :=
  match Input.nextByte input.outcomes with
  | (.ok (some byte), rest) => (.ok (byteCell byte), ⟨rest, input.taken + 1⟩)
  | (.ok none, rest) => (.ok endOfInputCell, ⟨rest, input.taken⟩)
  | (.error fault, rest) => (.error fault, ⟨rest, input.taken⟩)

def Output.putCell (output : Output) (cell : Int32) : Option Fault × Output :=
  output.put (cellByte cell)

end Tapewright
