namespace Tapewright

/-! Faults of byte streams.

A fault has a kind, which decides whether a call is repeated, and a text, which
only ever ends up in messages.
-/

inductive FaultKind where
  | interrupted
  | brokenPipe
  | wouldBlock
  | unexpectedEof
  | permissionDenied
  | notFound
  | writeZero
  | other
deriving DecidableEq, Repr

structure Fault where
  kind : FaultKind
  text : String
deriving DecidableEq, Repr

namespace Fault

/-- What a writer reports when the stream takes none of the bytes it is offered. -/
def nothingAccepted : Fault :=
  ⟨.writeZero, "failed to write whole buffer"⟩

def noSuchFile : Fault :=
  ⟨.notFound, "No such file or directory (os error 2)"⟩

def notPermitted : Fault :=
  ⟨.permissionDenied, "Permission denied (os error 13)"⟩

/-- A path goes on behind something that is no directory. -/
def notDirectory : Fault :=
  ⟨.other, "Not a directory (os error 20)"⟩

def isDirectory : Fault :=
  ⟨.other, "Is a directory (os error 21)"⟩

def nameTooLong : Fault :=
  ⟨.other, "File name too long (os error 36)"⟩

/-- A call that was only interrupted is made again. -/
def isInterruption (fault : Fault) : Bool :=
  fault.kind == .interrupted

end Fault

end Tapewright
