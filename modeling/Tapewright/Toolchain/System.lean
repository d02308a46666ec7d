import Tapewright.C.Semantics
import Tapewright.Toolchain
import Tapewright.Toolchain.Switch

namespace Tapewright.Toolchain

/-! Compilers to run the command line with.

The C compiler is played by reading the text back as a main function, which gives an
executable that behaves as that function does.  Names that lead to no compiler, a compiler
that always fails, and the compiler's own switches are covered as far as they decide between
success and failure.  All of this stands outside: nothing is proved from it.
-/

/-- Run a main function as a process.  Using a cell outside the tape has no defined
outcome; here it counts as a segmentation fault. -/
def executableOf (main : C.MainFunction) : Executable :=
  fun fuel input =>
    match main.run fuel input with
    | .finished state => some (.exited state.printed.toList (.code main.status.toNat))
    | .undefined => some (.exited [] (.signal 11))
    | .unfinished => none

/-- A compiler that ends without an executable. -/
def fails (diagnostics : String) : Compilation :=
  .ended (.code 1) diagnostics none .missing

/-- The C compiler: text of a known form becomes an executable. -/
def compileC (arguments : List String) (text : String) : Compilation :=
  let switches := Switch.ofWords arguments
  if .unknown ∈ switches then
    fails "cc: error: unrecognized command-line option\n"
  else
    match C.MainFunction.ofText? text with
    | none => fails "<stdin>: error: not a program\n"
    | some main =>
        if .unlinked ∈ switches then .ended (.code 0) "" none .notExecutable
        else if .missingLibrary ∈ switches then
          fails "collect2: error: ld returned 1 exit status\n"
        else .ended (.code 0) "" none (executableOf main)

/-- Why nothing can be started under a name: there is nothing of that name, the name is
longer than any name in a directory, or it leads to a directory. -/
def spawnFault (name : String) : Fault :=
  match (name.splitOn "/").filter fun step => step ∉ ["", ".", ".."] with
  | first :: _ =>
      if first.utf8ByteSize > 255 ∨ name.utf8ByteSize > 4095 then .nameTooLong else .noSuchFile
  | [] => if name.isEmpty then .noSuchFile else .notPermitted

/-- The compilers there are, with the fault of starting one that is not there. -/
def compilersOr (fault : String → Fault) : Compilers :=
  fun name arguments text =>
    if name ∈ ["cc", "gcc", "/usr/bin/cc", "/usr/bin/gcc"] then compileC arguments text
    else if name ∈ ["false", "/bin/false", "/usr/bin/false"] then fails ""
    else .unstarted (fault name)

def compiler (name : String) (extra : List String) : Toolchain :=
  ofCompiler (compilersOr spawnFault) name extra

def standard : Toolchain :=
  compiler "cc" []

end Tapewright.Toolchain
