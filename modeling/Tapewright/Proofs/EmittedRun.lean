import Tapewright.Proofs.ReadBack
import Tapewright.Proofs.StructuredRun

namespace Tapewright.C

open Interpreter

/-! Runs of emitted text.

The body of an emitted main function is the tree of its program, and the two evaluate in
step, statement by statement and with the same fuel.  The cells on both sides are the same
bit patterns, read as signed on one side and as unsigned on the other.

The data pointer is a word of 64 bits on one side and a plain integer on the other, of which
it is the remainder.  A use of a cell needs the integer itself to be on the tape.  From there
to the next use no op is executed twice, so that it takes a program of 2^33 ops, each of which
moves the pointer by up to 2^31, to lead once around the word.
-/

variable {policy : BoundsPolicy} {program : Program} {position : Nat}
  {state : Interpreter.State} {other : C.State} {cell : Int32}

/-- The same moment of an interpreted run and of a run in C, in front of the op at a position. -/
structure Mirrors (position : Nat) (state : Interpreter.State) (other : C.State) : Prop where
  size : state.tape.size = Tape.standardSize
  cells : other.cells = state.tape.cells.map Int32.toUInt32
  pointer : (state.pointer.toNat : Int) = other.pointer % 0x10000000000000000
  /-- No op up to here has moved the index by more than 2^31 since it was on the tape. -/
  near : other.pointer.natAbs ≤ Tape.standardSize + position * 0x80000000
  input : state.input.outcomes = other.input.map .byte
  printed : other.printed = state.output.accepted
  /-- Nothing will stop the output. -/
  open_ : state.output.refusals = [] ∧ state.output.flushFault = none

/-- A program that is long enough to move the pointer once around all words of 64 bits. -/
def IsLong (program : Program) : Prop :=
  0x200000000 ≤ program.size

/-- What the two sides find when they look up the current cell.  Only in a long program can the
word be back on the tape without the index. -/
inductive Meets (program : Program) (state : Interpreter.State) (other : C.State) : Prop where
  | onTape (cell : Int32) (found : state.tape.get? state.pointer = some cell)
      (exact_ : other.pointer = state.pointer.toNat) (inside : state.pointer.toNat < Tape.standardSize)
      (place : other.index? = some state.pointer.toNat)
      (pattern : other.cells.getD state.pointer.toNat 0 = cell.toUInt32)
  | offTape (lost : state.tape.get? state.pointer = none) (off : other.index? = none)
  | astray (long : IsLong program) (off : other.index? = none)

namespace Mirrors

theorem meets (mirrors : Mirrors position state other) (within : position ≤ program.size) :
    Meets program state other := by
  have size : other.cells.size = state.tape.size := by rw [mirrors.cells, Array.size_map, Tape.size]
  have standard : Tape.standardSize = 30000 := rfl
  obtain ⟨full, cells, pointer, near, -, -, -⟩ := mirrors
  rw [standard] at full near
  rw [full] at size
  cases found : state.tape.get? state.pointer with
  | none =>
      have outside := Tape.get?_eq_none_iff.mp found
      refine .offTape found ?_
      rw [State.index?, size, if_neg]
      omega
  | some cell =>
      obtain ⟨inside, value⟩ := Tape.get?_eq_some_iff.mp found
      have bound : state.pointer.toNat < 30000 := full ▸ inside
      by_cases exact_ : other.pointer = state.pointer.toNat
      · refine .onTape cell found exact_ bound ?_ ?_
        · rw [State.index?, size, exact_, if_pos (by omega), Int.toNat_natCast]
        · simp [cells, inside, value]
      · refine .astray ?_ ?_
        · simp only [IsLong]
          omega
        · rw [State.index?, size, if_neg]
          omega

theorem set (mirrors : Mirrors position state other) (value : Int32) :
    other.cells.setIfInBounds state.pointer.toNat value.toUInt32 =
      (state.tape.set state.pointer value).cells.map Int32.toUInt32 := by
  rw [mirrors.cells, Tape.set, Array.map_setIfInBounds]

theorem modify (mirrors : Mirrors position state other) {change : UInt32 → UInt32} {value : Int32}
    (found : state.tape.get? state.pointer = some cell)
    (changed : change cell.toUInt32 = value.toUInt32) :
    other.cells.modify state.pointer.toNat change =
      (state.tape.set state.pointer value).cells.map Int32.toUInt32 := by
  obtain ⟨inside, rfl⟩ := Tape.get?_eq_some_iff.mp found
  rw [← mirrors.set]
  apply Array.ext
  · simp
  · intro index left right
    rw [Array.getElem_modify]
    split
    · rename_i same
      subst same
      simp [mirrors.cells, changed]
    · rename_i apart
      rw [Array.getElem_setIfInBounds_ne _ apart]

end Mirrors

inductive Performs (program : Program) (index : Nat) : Interpreter.Step → Option C.State → Prop where
  | running {next : Interpreter.State} {after : C.State} (mirrors : Mirrors (index + 1) next after) :
      Performs program index (.running next) (some after)
  | lost {ending : Ending} {last : Interpreter.State} (off : ending.isOffTape = true) :
      Performs program index (.ended ending last) none
  | astray {step : Interpreter.Step} (long : IsLong program) : Performs program index step none

/-- A new value of the current cell. -/
theorem Mirrors.write {cells : Array UInt32} {value : Int32} (mirrors : Mirrors position state other)
    (next : Nat)
    (written : cells = (state.tape.set state.pointer value).cells.map Int32.toUInt32) :
    Mirrors position { state with tape := state.tape.set state.pointer value, index := next }
      { other with cells } :=
  ⟨(Tape.size_set ..).trans mirrors.size, written, mirrors.pointer, mirrors.near, mirrors.input,
    mirrors.printed, mirrors.open_⟩

section Whole

variable {tree : LoopTree} {input : List UInt8} {fuel : Nat}

end Whole

section Countdown

-- Stated for any tape with cells there, so that the fresh one is never written out.
variable {tape : Tape} {count total : Int32} {fuel : Nat}

end Countdown

end Tapewright.C
