import Tapewright.Stream.Fault

namespace Tapewright

/-! Input streams as data.

A stream is the list of what its reads will bring; once the list is used up every
further read brings the end of the stream.  The end may also stand in the middle:
a reader that asks again then gets what follows.
-/

inductive ReadOutcome where
  | byte (value : UInt8)
  | endOfStream
  | fails (fault : Fault)
deriving DecidableEq, Repr

structure Input where
  outcomes : List ReadOutcome
  taken : Nat
deriving DecidableEq, Repr

namespace Input

def ofBytes (bytes : List UInt8) : Input :=
  ⟨bytes.map .byte, 0⟩

/-- Bytes that are all there are an input. -/
instance : Coe (List UInt8) Input :=
  ⟨ofBytes⟩

/-- What is left of an input after so many reads. -/
def afterReads (input : Input) (count : Nat) : Input :=
  let isByte (outcome : ReadOutcome) : Bool :=
    match outcome with
    | .byte _ => true
    | .endOfStream | .fails _ => false
  ⟨input.outcomes.drop count, input.taken + (input.outcomes.take count).countP isByte⟩

/-- The next byte, or `none` at the end of the stream, with the outcomes left.
Interrupted reads are made again. -/
def nextByte : List ReadOutcome → Except Fault (Option UInt8) × List ReadOutcome
  | [] => (.ok none, [])
  | .byte value :: rest => (.ok (some value), rest)
  | .endOfStream :: rest => (.ok none, rest)
  | .fails fault :: rest =>
      if fault.isInterruption then nextByte rest else (.error fault, rest)

/-- The bytes up to the end of the stream, with the outcomes left.  A fault ends
the copy; the bytes before it have been taken all the same.  The bytes copied so
far are given in reverse. -/
def copyFrom (copied : List UInt8) :
    List ReadOutcome → List UInt8 × Option Fault × List ReadOutcome
  | [] => (copied.reverse, none, [])
  | .byte value :: rest => copyFrom (value :: copied) rest
  | .endOfStream :: rest => (copied.reverse, none, rest)
  | .fails fault :: rest =>
      if fault.isInterruption then copyFrom copied rest
      else (copied.reverse, some fault, rest)

def spool (input : Input) : Except Fault (List UInt8) × Input :=
  match copyFrom [] input.outcomes with
  | (bytes, none, rest) => (.ok bytes, ⟨rest, input.taken + bytes.length⟩)
  | (bytes, some fault, rest) => (.error fault, ⟨rest, input.taken + bytes.length⟩)

end Input

end Tapewright
