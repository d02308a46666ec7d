import Tapewright.AheadOfTime
import Tapewright.Native
import Tapewright.X86.Code

namespace Tapewright

/-! The three ways to run a program on fresh memory, behind one interface. -/

inductive Backend where
  | interpreter (policy : BoundsPolicy)
  | native
  | aheadOfTime (toolchain : Toolchain) (spool : AheadOfTime.Spool := .works)

inductive BackendFailure where
  | interpreter (ending : Interpreter.Ending)
  | native (ending : Native.Ending)
  | aheadOfTime (ending : AheadOfTime.Ending)
deriving DecidableEq, Repr

namespace BackendFailure

def message (failure : BackendFailure) : String :=
  (match failure with
    | .interpreter ending => ending.message?
    | .native ending => ending.message?
    | .aheadOfTime ending => ending.message?).getD ""

/-- A crash ends the whole process, not only the run. -/
def isCrash : BackendFailure → Bool
  | .interpreter (.crashed ..) => true
  | .native (.escaped ..) => true
  | _ => false

end BackendFailure

structure Evaluation where
  failure : Option BackendFailure
  input : Input
  output : Output
  requests : List String
  events : List Log.Event

namespace Backend

def name : Backend → String
  | .interpreter _ => "interpreter"
  | .native => "jit"
  | .aheadOfTime .. => "aot"

/-- Addresses for code that is measured and not executed; every address takes the
same number of code bytes. -/
def placeholderHost : X86.HostAddresses :=
  ⟨0, 0⟩

/-- Run a program on a fresh tape; `none` when the fuel runs out. -/
def eval (backend : Backend) (fuel : Nat) (program : Program) (input : Input)
    (output : Output) : Option Evaluation :=
  match backend with
  | .interpreter policy =>
      (Interpreter.run policy program fuel (.start .fresh input output)).map
        fun (ending, last) =>
          let failed := ending != .finished
          { failure := if failed then some (.interpreter ending) else none
            input := last.input
            output := last.output
            requests := []
            events :=
              if failed then []
              else [⟨.info, .interpreter, "interpreter finished", [Log.varying "elapsed"]⟩] }
  | .native =>
      let bytes := (X86.assemble placeholderHost program).size
      (Native.run program fuel (.start .fresh (.ofStreams input output))).map
        fun (ending, last) =>
          let failed := ending != .finished
          { failure := if failed then some (.native ending) else none
            input := last.host.input
            output := last.host.output
            requests := []
            events :=
              ⟨.debug, .native, "jitted program",
                [Log.count "ops" program.size, Log.count "bytes" bytes]⟩ ::
              if failed then []
              else [⟨.info, .native, "jit finished",
                [Log.varying "compiled", Log.varying "elapsed"]⟩] }
  | .aheadOfTime toolchain spool =>
      (AheadOfTime.run toolchain program fuel (.start input output) spool).map
        fun (ending, last) =>
          let failed := ending != .finished
          { failure := if failed then some (.aheadOfTime ending) else none
            input := last.input
            output := last.output
            requests := last.requests
            events :=
              ⟨.debug, .aheadOfTime, "emitted C source",
                [Log.count "bytes" (C.emit program).utf8ByteSize]⟩ ::
              toolchain.notice ++
              if failed then []
              else [⟨.info, .aheadOfTime, "aot finished",
                [Log.varying "compiled", Log.varying "elapsed"]⟩] }

end Backend

end Tapewright
