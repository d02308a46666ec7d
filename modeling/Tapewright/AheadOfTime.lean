import Tapewright.C.Statement
import Tapewright.Stream.Input
import Tapewright.Stream.Output
import Tapewright.Toolchain

namespace Tapewright.AheadOfTime

/-! Building a program ahead of time and running what was built.

The order of effects is fixed: the toolchain is asked for an executable, the whole
input is read into a temporary file, the executable is launched, everything it printed
is written and flushed, and only then its exit status is looked at.  Whatever fails first
decides the outcome, and nothing after it happens.
-/

inductive Ending where
  | finished
  | toolchain (error : ToolchainError)
  | launch (fault : Fault)
  | stream (fault : Fault)
  | programFailed (status : ExitStatus)
deriving DecidableEq, Repr

/-- The text of an ending that is not a success.  A failed launch names the executable,
whose path varies. -/
def Ending.message? : Ending → Option String
  | .finished => none
  | .toolchain error => some error.message
  | .launch fault => some ("could not run _: " ++ fault.text)
  | .stream fault => some ("I/O error while running compiled program: " ++ fault.text)
  | .programFailed status => some ("compiled program exited with " ++ status.render)

/-- What becomes of the temporary file that the input is copied to. -/
inductive Spool where
  | works
  /-- It cannot be created. -/
  | missing (fault : Fault)
  /-- It cannot be written or rewound any more after so many reads of the input. -/
  | broken (reads : Nat) (fault : Fault)

structure Record where
  requests : List String
  launches : List (List UInt8)
  input : Input
  output : Output
deriving DecidableEq, Repr

def Record.start (input : Input) (output : Output) : Record :=
  ⟨[], [], input, output⟩

/-- Write what a process printed, flush, and look at its exit status. -/
def deliver (printed : List UInt8) (status : ExitStatus) (record : Record) :
    Ending × Record :=
  match record.output.putAll printed with
  | (some fault, output) => (.stream fault, { record with output })
  | (none, output) =>
      match output.flush with
      | (some fault, output) => (.stream fault, { record with output })
      | (none, output) =>
          (if status.isSuccess then .finished else .programFailed status, { record with output })

/-- Read the input, launch the executable on it, and deliver what it printed. -/
def launch (fuel : Nat) (executable : Executable) (record : Record) (spool : Spool := .works) :
    Option (Ending × Record) :=
  match spool with
  | .missing fault => some (.stream fault, record)
  | .broken reads fault =>
      some (.stream fault, { record with input := record.input.afterReads reads })
  | .works =>
      match record.input.spool with
      | (.error fault, input) => some (.stream fault, { record with input })
      | (.ok bytes, input) =>
          let record := { record with input, launches := record.launches ++ [bytes] }
          match executable fuel bytes with
          | none => none
          | some (.refused fault) => some (.launch fault, record)
          | some (.exited printed status) => some (deliver printed status record)

/-- Build a program and run it; `none` when the executable does not end within the
fuel. -/
def run (toolchain : Toolchain) (program : Program) (fuel : Nat) (record : Record)
    (spool : Spool := .works) : Option (Ending × Record) :=
  let text := C.emit program
  let record := { record with requests := record.requests ++ [text] }
  match toolchain.build text with
  | .error error => some (.toolchain error, record)
  | .ok executable => launch fuel executable record spool

end Tapewright.AheadOfTime
