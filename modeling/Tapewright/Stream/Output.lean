import Tapewright.Stream.Fault

namespace Tapewright

/-! Output streams as data.

A stream accepts bytes until a refusal is due: the first refusal left takes effect
at the first write that finds at least its position many bytes accepted, and is
then spent.  Nothing else ever stops a write.
-/

/-- How a write is refused: with a fault, or by taking none of the bytes. -/
inductive RefusalCause where
  | fails (fault : Fault)
  | acceptsNothing
deriving DecidableEq, Repr

structure Refusal where
  position : Nat
  cause : RefusalCause
deriving DecidableEq, Repr

structure Output where
  accepted : Array UInt8
  refusals : List Refusal
  /-- What the next flush fails with. -/
  flushFault : Option Fault
  /-- How many times the stream has been flushed, failed flushes included. -/
  flushes : Nat
deriving DecidableEq, Repr

namespace RefusalCause

/-- The fault a writer of a whole buffer makes of a refusal; `none` when it tries
again. -/
def fault? : RefusalCause → Option Fault
  | .fails fault => if fault.isInterruption then none else some fault
  | .acceptsNothing => some .nothingAccepted

end RefusalCause

namespace Output

def unlimited : Output :=
  ⟨#[], [], none, 0⟩

/-- The fault, if any, that meets a write after `accepted` bytes, and the refusals
left.  Refusals that are only interruptions are spent on the way. -/
def dueFault (accepted : Nat) : List Refusal → Option Fault × List Refusal
  | [] => (none, [])
  | refusal :: rest =>
      if refusal.position ≤ accepted then
        match refusal.cause.fault? with
        | none => dueFault accepted rest
        | some fault => (some fault, rest)
      else
        (none, refusal :: rest)

def put (output : Output) (byte : UInt8) : Option Fault × Output :=
  match dueFault output.accepted.size output.refusals with
  | (none, rest) =>
      (none, { output with accepted := output.accepted.push byte, refusals := rest })
  | (some fault, rest) => (some fault, { output with refusals := rest })

def putAll (output : Output) : List UInt8 → Option Fault × Output
  | [] => (none, output)
  | byte :: rest =>
      match output.put byte with
      | (none, next) => next.putAll rest
      | (some fault, last) => (some fault, last)

/-- Flush the stream; a flush is never repeated. -/
def flush (output : Output) : Option Fault × Output :=
  (output.flushFault, { output with flushFault := none, flushes := output.flushes + 1 })

end Output

end Tapewright
