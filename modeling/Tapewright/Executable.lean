import Tapewright.Stream.Fault

namespace Tapewright

/-! Executables, seen from outside: what a launch brings for given input bytes. -/

inductive ExitStatus where
  | code (value : Nat)
  | signal (number : Nat)
deriving DecidableEq, Repr

namespace ExitStatus

def isSuccess (status : ExitStatus) : Bool :=
  status == .code 0

def code? : ExitStatus → Option Nat
  | .code value => some value
  | .signal _ => none

def signal? : ExitStatus → Option Nat
  | .code _ => none
  | .signal number => some number

/-- The names of the signals from number 1 on. -/
def signalNames : List String :=
  ["SIGHUP", "SIGINT", "SIGQUIT", "SIGILL", "SIGTRAP", "SIGABRT", "SIGBUS", "SIGFPE",
    "SIGKILL", "SIGUSR1", "SIGSEGV", "SIGUSR2", "SIGPIPE", "SIGALRM", "SIGTERM", "SIGSTKFLT",
    "SIGCHLD", "SIGCONT", "SIGSTOP", "SIGTSTP", "SIGTTIN", "SIGTTOU", "SIGURG", "SIGXCPU",
    "SIGXFSZ", "SIGVTALRM", "SIGPROF", "SIGWINCH", "SIGIO", "SIGPWR", "SIGSYS"]

def signalName? (number : Nat) : Option String :=
  match number with
  | 0 => none
  | index + 1 => signalNames[index]?

def render : ExitStatus → String
  | .code value => "exit status: " ++ toString value
  | .signal number =>
      match signalName? number with
      | some name => "signal: " ++ toString number ++ " (" ++ name ++ ")"
      | none => "signal: " ++ toString number

end ExitStatus

inductive Launch where
  | refused (fault : Fault)
  | exited (printed : List UInt8) (status : ExitStatus)
deriving DecidableEq, Repr

/-- An executable turns its input bytes into the outcome of a launch; `none` when it
does not end within the fuel. -/
abbrev Executable :=
  Nat → List UInt8 → Option Launch

namespace Executable

def missing : Executable :=
  fun _ _ => some (.refused .noSuchFile)

def notExecutable : Executable :=
  fun _ _ => some (.refused .notPermitted)

/-- Prints fixed bytes and ends with a fixed status, whatever its input. -/
def constant (printed : List UInt8) (status : ExitStatus) : Executable :=
  fun _ _ => some (.exited printed status)

def copier : Executable :=
  fun _ input => some (.exited input (.code 0))

end Executable

end Tapewright
