import Tapewright.CommandLine.Options
import Tapewright.CommandLine.Usage

namespace Tapewright.CommandLine

/-! The help texts.

The summary has one line per argument, with the descriptions aligned; the full text
sets every description below its argument and lists the modes one by one.  The layout is that
of a library, and part of the outer layer.
-/

def commandName : String := "brainforge"

def versionText : String :=
  commandName ++ " 0.1.0\n"

def about : String :=
  "Brainfuck compiler with interpreter, x86-64 JIT and C ahead-of-time backends"

def usageText : String :=
  "Usage: " ++ commandName ++ " [OPTIONS] <FILE> [INPUT]"

namespace Mode

def description : Mode → String
  | .interpreter => "Execute via interpreter"
  | .native => "Execute via Jit compilation and execution"
  | .aheadOfTime => "Compile to C, build it with --cc, run it"
  | .all => "Run aot, jit and the interpreter one after another"

def listed : List Mode :=
  [.interpreter, .native, .aheadOfTime, .all]

end Mode

namespace Argument

def heading (argument : Argument) : String :=
  match argument with
  | .file | .input => argument.display
  | .mode => "-m, " ++ argument.display
  | .verbose => "-v, " ++ argument.display
  | .help => "-h, " ++ argument.display
  | .version => "-V, " ++ argument.display
  | _ => "    " ++ argument.display

def description (full : Bool) : Argument → String
  | .file => "A positional file containing the Brainfuck code you would like to run"
  | .input => "A file whose bytes feed ',' (stdin when left out)"
  | .mode => "Specifies the mode of execution"
  | .noOptimize => "Skip the peephole optimizer (brackets are still resolved)"
  | .checkBounds => "Make the interpreter report pointer overruns instead of crashing"
  | .compiler => "C compiler used by the aot mode"
  | .dumpOps => "Print the compiled ops and exit"
  | .emitC => "Print the C the aot mode would compile and exit"
  | .verbose => "More log output on stderr (-v info, -vv debug)"
  | .help =>
      if full then "Print help (see a summary with '-h')"
      else "Print help (see more with '--help')"
  | .version => "Print version"

def default? : Argument → Option String
  | .mode => some Mode.interpreter.word
  | .compiler => some "cc"
  | _ => none

def positionals : List Argument :=
  [.file, .input]

def options : List Argument :=
  [.mode, .noOptimize, .checkBounds, .compiler, .dumpOps, .emitC, .verbose, .help, .version]

end Argument

def padTo (width : Nat) (text : String) : String :=
  text.pushn ' ' (width - text.length)

def deepIndent : String :=
  "".pushn ' ' 10

def summaryEntry (width : Nat) (argument : Argument) : String :=
  let default := (argument.default?.map (" [default: " ++ · ++ "]")).getD ""
  let values :=
    if argument = .mode then
      " [possible values: " ++ String.intercalate ", " (Mode.listed.map Mode.word) ++ "]"
    else ""
  "  " ++ padTo width argument.heading ++ "  " ++ argument.description false ++ default ++
    values ++ "\n"

def modeEntry (mode : Mode) : String :=
  "\n" ++ deepIndent ++ "- " ++ padTo 13 (mode.word ++ ": ") ++ mode.description

def fullEntry (argument : Argument) : String :=
  let default :=
    (argument.default?.map fun text =>
      "\n" ++ deepIndent ++ "\n" ++ deepIndent ++ "[default: " ++ text ++ "]").getD ""
  let values :=
    if argument = .mode then
      "\n\n" ++ deepIndent ++ "Possible values:" ++ String.join (Mode.listed.map modeEntry)
    else ""
  "  " ++ argument.heading ++ "\n" ++ deepIndent ++ argument.description true ++ values ++
    default ++ "\n"

def helpText (full : Bool) : String :=
  let entries (width : Nat) (arguments : List Argument) : String :=
    if full then String.intercalate "\n" (arguments.map fullEntry)
    else String.join (arguments.map (summaryEntry width))
  about ++ "\n\n" ++ usageText ++ "\n\nArguments:\n" ++ entries 7 Argument.positionals ++
    "\nOptions:\n" ++ entries 18 Argument.options

end Tapewright.CommandLine
