import Tapewright.Executable
import Tapewright.Log

namespace Tapewright

/-! Toolchains: what turns C text into an executable.

A toolchain asks the system for a compiler by its name and gives it the text.  What compilers
make of a text is up to the system, so they are a parameter here: all that is fixed is what
they are asked for and how their answers are read.
-/

inductive ToolchainError where
  | spawn (compiler : String) (fault : Fault)
  | stream (fault : Fault)
  | failed (status : ExitStatus) (diagnostics : String)
deriving DecidableEq, Repr

def ToolchainError.message : ToolchainError → String
  | .spawn compiler fault => "could not start compiler `" ++ compiler ++ "`: " ++ fault.text
  | .stream fault => "I/O error while talking to the compiler: " ++ fault.text
  | .failed status diagnostics =>
      "compiler exited with " ++ status.render ++ ": " ++ diagnostics

structure Toolchain where
  notice : List Log.Event
  build : String → Except ToolchainError Executable

/-- What comes of asking for a compiler. -/
inductive Compilation where
  /-- Nothing could be started under the name. -/
  | unstarted (fault : Fault)
  /-- The compiler was started, but not seen to end. -/
  | lost (fault : Fault)
  /-- The compiler has ended, perhaps without taking all of the text.  The executable is what
  is then found where it was to be put. -/
  | ended (status : ExitStatus) (diagnostics : String) (unwritten : Option Fault)
      (executable : Executable)

/-- The compilers of a system: what comes of a name, switches and a text. -/
abbrev Compilers :=
  String → List String → String → Compilation

namespace Compilation

/-- What a toolchain makes of an answer.  A text that was not taken is looked at last. -/
def result (name : String) : Compilation → Except ToolchainError Executable
  | .unstarted fault => .error (.spawn name fault)
  | .lost fault => .error (.stream fault)
  | .ended status diagnostics unwritten executable =>
      if status.isSuccess then
        match unwritten with
        | none => .ok executable
        | some fault => .error (.stream fault)
      else
        .error (.failed status diagnostics)

end Compilation

namespace Toolchain

/-- A text in double quotes; quotes and backslashes in it are escaped. -/
def quoted (text : String) : String :=
  let escape (c : Char) : String :=
    if c = '"' ∨ c = '\\' then "\\" ++ String.singleton c else String.singleton c
  "\"" ++ String.join (text.toList.map escape) ++ "\""

def quotedList (texts : List String) : String :=
  "[" ++ String.intercalate ", " (texts.map quoted) ++ "]"

def defaultArguments : List String :=
  ["-O2"]

/-- The toolchain that runs a compiler by name, with extra arguments. -/
def ofCompiler (compilers : Compilers) (name : String) (extra : List String) : Toolchain :=
  let arguments := defaultArguments ++ extra
  { notice :=
      [⟨.debug, .aheadOfTime, "invoking C compiler",
        [("compiler", some name), ("args", some (quotedList arguments)), Log.varying "exe"]⟩]
    build := fun text => (compilers name arguments text).result name }

end Toolchain

end Tapewright
