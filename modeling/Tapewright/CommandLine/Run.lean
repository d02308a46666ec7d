import Tapewright.CommandLine.Execute
import Tapewright.CommandLine.Help
import Tapewright.CommandLine.Parse
import Tapewright.Log.Filter
import Tapewright.Toolchain.System

namespace Tapewright.CommandLine

/-! The command as a process.

Around what a valid command line does stand the reading of its words, the help texts, the
filter of the log, and the compilers of the system it runs on.  These play the libraries and
programs that a command uses, and nothing is proved from them.
-/

/-- The fault of starting a compiler that is not there.  A name with a slash is a path,
and what it leads to cannot be run. -/
def Surroundings.compilerFault (surroundings : Surroundings) (name : String) : Fault :=
  if name.contains '/' then
    match surroundings.readFile name with
    | .ok _ => .notPermitted
    | .error fault => if fault = .isDirectory then .notPermitted else fault
  else
    Toolchain.spawnFault name

def Surroundings.facilities (surroundings : Surroundings) : Facilities :=
  ⟨Toolchain.compilersOr surroundings.compilerFault, .works⟩

inductive Answer where
  /-- The command line was refused, with the first line of the complaint. -/
  | refused (complaint : String)
  /-- The command ran: its exit code, what it printed, and the lines it logged. -/
  | ran (exitCode : Nat) (printed : List UInt8) (log : List String)
deriving DecidableEq, Repr

def complaint (error : UsageError) : String :=
  String.ofList (Text.firstLine ("error: " ++ error.message).toList)

/-- Read and run a command line; `none` when the fuel runs out.  A log setting that
cannot be cut into its parts crashes the command before it does anything. -/
def run (fuel : Nat) (surroundings : Surroundings) (words : List String) : Option Answer :=
  match parse words with
  | .error (.usage error) => some (.refused (complaint error))
  | .error (.help full) => some (.ran ExitCode.success (helpText full).toUTF8.data.toList [])
  | .error .version => some (.ran ExitCode.success versionText.toUTF8.data.toList [])
  | .ok options =>
      match Log.Filter.ofSetting surroundings.logSetting options.verbosity with
      | none => some (.ran ExitCode.crash [] [])
      | some filter =>
          (execute fuel surroundings.facilities surroundings options).map fun outcome =>
            .ran outcome.exitCode outcome.output.accepted.toList
              ((outcome.events.filter filter.allows).map Log.Event.render)

end Tapewright.CommandLine
