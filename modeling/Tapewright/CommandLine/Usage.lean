import Tapewright.Text.Terminal

namespace Tapewright.CommandLine

/-! The arguments of the command line, and what can be wrong with them.

The complaints are worded by a library, in the outer layer around a valid command line.
-/

inductive Argument where
  | file
  | input
  | mode
  | noOptimize
  | checkBounds
  | compiler
  | dumpOps
  | emitC
  | verbose
  | help
  | version
deriving DecidableEq, Repr

namespace Argument

def display : Argument → String
  | .file => "<FILE>"
  | .input => "[INPUT]"
  | .mode => "--mode <MODE>"
  | .noOptimize => "--no-optimize"
  | .checkBounds => "--check-bounds"
  | .compiler => "--cc <CC>"
  | .dumpOps => "--dump-ir"
  | .emitC => "--emit-c"
  | .verbose => "--verbose..."
  | .help => "--help"
  | .version => "--version"

def ofLong? (name : String) : Option Argument :=
  match name with
  | "mode" => some .mode
  | "no-optimize" => some .noOptimize
  | "check-bounds" => some .checkBounds
  | "cc" => some .compiler
  | "dump-ir" => some .dumpOps
  | "emit-c" => some .emitC
  | "verbose" => some .verbose
  | "help" => some .help
  | "version" => some .version
  | _ => none

def ofShort? (letter : Char) : Option Argument :=
  match letter with
  | 'm' => some .mode
  | 'v' => some .verbose
  | 'h' => some .help
  | 'V' => some .version
  | _ => none

def takesValue : Argument → Bool
  | .mode | .compiler | .file | .input => true
  | _ => false

end Argument

inductive UsageError where
  | missingFile
  /-- A value the argument does not take; the empty text stands for no value too. -/
  | invalidValue (argument : Argument) (value : String)
  | unknownArgument (text : String)
  | repeated (argument : Argument)
  | unexpectedValue (argument : Argument) (value : String)
deriving DecidableEq, Repr

/-- A word of the command line between quotes, as far as a terminal would show it. -/
def quotedWord (text : String) : String :=
  "'" ++ Text.Terminal.strip text ++ "'"

def UsageError.message : UsageError → String
  | .missingFile => "the following required arguments were not provided:"
  | .invalidValue argument value =>
      if value.isEmpty then
        "a value is required for '" ++ argument.display ++ "' but none was supplied"
      else
        "invalid value " ++ quotedWord value ++ " for '" ++ argument.display ++ "'"
  | .unknownArgument text => "unexpected argument " ++ quotedWord text ++ " found"
  | .repeated argument =>
      "the argument '" ++ argument.display ++ "' cannot be used multiple times"
  | .unexpectedValue argument value =>
      "unexpected value " ++ quotedWord value ++ " for '" ++ argument.display ++
        "' found; no more were expected"

inductive Stop where
  | usage (error : UsageError)
  /-- A request for the help text, in full or as a summary. -/
  | help (full : Bool)
  | version
deriving DecidableEq, Repr

end Tapewright.CommandLine
