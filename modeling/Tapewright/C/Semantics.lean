import Tapewright.C.MainFunction

namespace Tapewright.C

/-! What a main function does when it runs.

The tape is an array of `uint32_t` and the pointer an index into it, which is a plain
integer: moving it never wraps around.  Only using a cell needs the index to be inside the
tape, and anything else is undefined.  Constants and the result of `getchar` are converted
to `uint32_t` modulo 2^32.
-/

structure State where
  cells : Array UInt32
  pointer : Int
  input : List UInt8
  printed : Array UInt8
deriving DecidableEq, Repr

inductive Run where
  | finished (state : State)
  /-- A cell outside the tape was used. -/
  | undefined
  | unfinished

def constant (value : Int) : UInt32 :=
  (Int32.ofInt value).toUInt32

namespace State

/-- The index of the current cell, if it is inside the tape. -/
def index? (state : State) : Option Nat :=
  if 0 ≤ state.pointer ∧ state.pointer < state.cells.size then some state.pointer.toNat else none

/-- The value `getchar` returns, with what is left of the input. -/
def getchar : List UInt8 → Int × List UInt8
  | [] => (-1, [])
  | byte :: rest => (byte.toNat, rest)

@[inline] def perform (state : State) (statement : Statement) : Option State :=
  match statement with
  | .advance count => some { state with pointer := state.pointer + count }
  | .retreat count => some { state with pointer := state.pointer - count }
  | .openLoop | .closeLoop => none
  | .add value =>
      match state.index? with
      | none => none
      | some index =>
          some { state with cells := state.cells.modify index (· + constant value) }
  | .subtract value =>
      match state.index? with
      | none => none
      | some index =>
          some { state with cells := state.cells.modify index (· - constant value) }
  | .store value =>
      match state.index? with
      | none => none
      | some index =>
          some { state with cells := state.cells.setIfInBounds index (constant value) }
  | .put =>
      match state.index? with
      | none => none
      | some index =>
          let cell := state.cells.getD index 0
          some { state with printed := state.printed.push cell.toUInt8 }
  | .get =>
      match state.index? with
      | none => none
      | some index =>
          let (value, input) := getchar state.input
          some { state with
            input
            cells := state.cells.setIfInBounds index (constant value) }

end State

/-- Execute a block; every statement and every test of a loop costs one unit of
fuel. -/
def Block.run : Nat → Block → State → Run
  | 0, _, _ => .unfinished
  | _ + 1, .done, state => .finished state
  | fuel + 1, .act statement next, state =>
      match state.perform statement with
      | none => .undefined
      | some after => run fuel next after
  | fuel + 1, .loop body next, state =>
      match state.index? with
      | none => .undefined
      | some index =>
          if state.cells.getD index 0 = 0 then
            run fuel next state
          else
            match run fuel body state with
            | .finished after => run fuel (.loop body next) after
            | .undefined => .undefined
            | .unfinished => .unfinished

namespace MainFunction

def start (main : MainFunction) (input : List UInt8) : State :=
  ⟨Array.replicate main.cells 0, 0, input, #[]⟩

def run (main : MainFunction) (fuel : Nat) (input : List UInt8) : Run :=
  main.body.run fuel (main.start input)

end MainFunction

end Tapewright.C
