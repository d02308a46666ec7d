import Tapewright.CommandLine.Execute
import Tapewright.Proofs.EffectOrder
import Tapewright.Proofs.OutputFrame

namespace Tapewright

/-! Commands against the backends they run.

A command runs its backends one after another and lets them print to the same place.  Its outcome
is put together from what each backend comes to by itself: the bytes in the order of the backends,
and a failure as soon as one of them has failed.  No backend takes input from another, for the
standard input is only ever streamed to a single one.
-/

def Evaluation.isCrash (evaluation : Evaluation) : Bool :=
  evaluation.failure.any BackendFailure.isCrash

namespace CommandLine

variable {program : Program} {bytes : List UInt8} {fuel : Nat} {outcome final : Outcome}
  {backend : Backend} {evaluation : Evaluation} {rest : List Backend}
  {runs : List (Backend × Evaluation)}

/-- A path has these bytes, and this is what is found once they are read.  The standard input can
give its bytes only once. -/
inductive Surroundings.Holds (surroundings : Surroundings) (path : String) :
    List UInt8 → Surroundings → Prop where
  | file {bytes : List UInt8} (found : surroundings.readFile path = .ok (some bytes)) :
      Holds surroundings path bytes surroundings
  | standardInput {bytes : List UInt8} (leads : surroundings.readFile path = .ok none)
      (whole : surroundings.standardInput = .ofBytes bytes) :
      Holds surroundings path bytes { surroundings with standardInput := .ofBytes [] }

/-- What a command logs about a backend that has run. -/
def logged (run : Backend × Evaluation) : List Log.Event :=
  run.2.events ++ (run.2.failure.map (failureEvent run.1)).toList

namespace Outcome

/-- The outcome of a command with one more backend run. -/
def add (outcome : Outcome) (run : Backend × Evaluation) : Outcome where
  exitCode := if run.2.failure.isNone then outcome.exitCode else ExitCode.failure
  output := outcome.output.behind run.2.output
  events := outcome.events ++ logged run

end Outcome

section Script

-- Stated for any tape with a cell there, so that the fresh one is never written out.
variable {tape : Tape} {cell : Int32}

end Script

end CommandLine

end Tapewright
