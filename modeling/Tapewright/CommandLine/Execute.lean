import Tapewright.Backend
import Tapewright.CommandLine.Options

namespace Tapewright.CommandLine

/-! What a valid command line does.

The source is read and compiled, then either shown or run on every backend the mode
selects, one after another.  A backend that runs alone reads the standard input as it goes.
More than one would take it from each other, so then it is read before and every backend gets
all of it.  Each has a fresh tape, and a failing backend does not keep the next one from
running.
-/

/-- What a system provides for programs that are built ahead of time. -/
structure Facilities where
  compilers : Compilers
  spool : AheadOfTime.Spool

structure Surroundings where
  /-- The contents of the file at a path; `none` if it leads to the standard input. -/
  readFile : String → Except Fault (Option (List UInt8))
  standardInput : Input
  /-- The setting that replaces the verbosity in the log filter. -/
  logSetting : Option String

/-- What a command has printed and logged, and how it exits. -/
structure Outcome where
  exitCode : Nat
  output : Output
  events : List Log.Event

namespace ExitCode

def success : Nat := 0

def failure : Nat := 1

def usage : Nat := 2

def crash : Nat := 101

end ExitCode

def errorEvent (message : String) : Log.Event :=
  ⟨.error, .commandLine, message, []⟩

def openError (path : String) (fault : Fault) : Log.Event :=
  errorEvent ("Failed to open file " ++ path ++ ": " ++ fault.text)

def printed (text : String) (events : List Log.Event) : Outcome :=
  ⟨ExitCode.success, (Output.unlimited.putAll text.toUTF8.data.toList).2, events⟩

def fail (events : List Log.Event) (event : Log.Event) : Outcome :=
  ⟨ExitCode.failure, .unlimited, events ++ [event]⟩

/-- Read a file, with what is found afterwards: what the standard input has given is gone,
and whoever reads on counts from there. -/
def Surroundings.read (surroundings : Surroundings) (path : String) :
    Except Fault (List UInt8 × Surroundings) :=
  match surroundings.readFile path with
  | .error fault => .error fault
  | .ok (some contents) => .ok (contents, surroundings)
  | .ok none =>
      match surroundings.standardInput.spool with
      | (.error fault, _) => .error fault
      | (.ok contents, left) =>
          .ok (contents, { surroundings with standardInput := ⟨left.outcomes, 0⟩ })

/-- The source text of a file, with what is found afterwards. -/
def readSource (surroundings : Surroundings) (path : String) :
    Except Fault (String × Surroundings) :=
  match surroundings.read path with
  | .error fault => .error fault
  | .ok (contents, after) =>
      match String.fromUTF8? contents.toByteArray with
      | some text => .ok (text, after)
      | none => .error ⟨.other, "stream did not contain valid UTF-8"⟩

/-- Compile a source text, with what is logged on the way. -/
def compileLogged (optimize : Bool) (text : String) :
    Except BracketError Program × List Log.Event :=
  let ops := Source.ops text
  let optimized := if optimize then Peephole.optimize ops else ops
  let noted : List Log.Event :=
    if optimize then
      [⟨.debug, .peephole, "optimized op-list",
        [Log.count "before" ops.length, Log.count "after" optimized.length]⟩]
    else []
  match Program.resolve optimized with
  | .error error => (.error error, noted)
  | .ok program =>
      (.ok program,
        noted ++ [⟨.debug, .brackets, "resolved brackets", [Log.count "ops" program.size]⟩])

/-- The backends a mode selects, in the order they run. -/
def Options.backends (facilities : Facilities) (options : Options) : List Backend :=
  let interpreter := Backend.interpreter (if options.checkBounds then .checked else .unchecked)
  let aheadOfTime :=
    Backend.aheadOfTime (.ofCompiler facilities.compilers options.compiler []) facilities.spool
  match options.mode with
  | .interpreter => [interpreter]
  | .native => [.native]
  | .aheadOfTime => [aheadOfTime]
  | .all => [aheadOfTime, .native, interpreter]

/-- Where backends read their input. -/
inductive Feed where
  /-- Bytes in memory, which each of them reads from the first one. -/
  | held (bytes : List UInt8)
  /-- The standard input, where each of them reads on. -/
  | streamed (input : Input)

namespace Feed

def input : Feed → Input
  | .held bytes => .ofBytes bytes
  | .streamed input => input

/-- The feed of the next backend, from what one has left of its input. -/
def after : Feed → Input → Feed
  | .held bytes, _ => .held bytes
  | .streamed _, left => .streamed left

end Feed

/-- Where the backends are to read their input: a file that is given, or the standard input,
which is read into memory for more than one of them. -/
def openInput (surroundings : Surroundings) (path? : Option String) (backends : List Backend) :
    Except Log.Event Feed :=
  match path? with
  | some path =>
      match surroundings.read path with
      | .ok (bytes, _) => .ok (.held bytes)
      | .error fault => .error (openError path fault)
  | none =>
      if backends.length > 1 then
        match surroundings.standardInput.spool with
        | (.ok bytes, _) => .ok (.held bytes)
        | (.error fault, _) => .error (errorEvent ("Failed to read stdin: " ++ fault.text))
      else
        .ok (.streamed surroundings.standardInput)

def failureEvent (backend : Backend) (failure : BackendFailure) : Log.Event :=
  ⟨.error, .commandLine, failure.message,
    [("backend", some (Toolchain.quoted backend.name))]⟩

/-- Run backends one after another.  A crash ends the command at once. -/
def runBackends (fuel : Nat) (program : Program) (feed : Feed) (outcome : Outcome) :
    List Backend → Option Outcome
  | [] => some outcome
  | backend :: rest =>
      match backend.eval fuel program feed.input outcome.output with
      | none => none
      | some evaluation =>
          let events := outcome.events ++ evaluation.events
          let feed := feed.after evaluation.input
          match evaluation.failure with
          | none =>
              runBackends fuel program feed ⟨outcome.exitCode, evaluation.output, events⟩ rest
          | some failed =>
              if failed.isCrash then
                some ⟨ExitCode.crash, evaluation.output, events⟩
              else
                runBackends fuel program feed
                  ⟨ExitCode.failure, evaluation.output, events ++ [failureEvent backend failed]⟩ rest

/-- Run a valid command line; `none` when the fuel runs out. -/
def execute (fuel : Nat) (facilities : Facilities) (surroundings : Surroundings)
    (options : Options) : Option Outcome :=
  match readSource surroundings options.file with
  | .error fault => some (fail [] (openError options.file fault))
  | .ok (text, surroundings) =>
      match compileLogged (!options.noOptimize) text with
      | (.error error, events) =>
          some (fail events (errorEvent (options.file ++ ": " ++ error.message)))
      | (.ok program, events) =>
          if options.dumpOps then
            some (printed program.render events)
          else if options.emitC then
            some (printed (C.emit program) events)
          else
            let backends := options.backends facilities
            match openInput surroundings options.input backends with
            | .error event => some (fail events event)
            | .ok feed =>
                runBackends fuel program feed ⟨ExitCode.success, .unlimited, events⟩ backends

end Tapewright.CommandLine
