import Tapewright.CommandLine.Options
import Tapewright.CommandLine.Usage

namespace Tapewright.CommandLine

/-! Reading a command line from left to right.

A value in a word of its own is only looked at once the next option is accepted or
the line ends.  So an unknown option, one positional too many, or a value given to a
flag is reported even if an earlier value is bad, while a bad value is reported
before any option that follows it takes effect.
-/

inductive Word where
  /-- Two dashes: only positionals follow. -/
  | separator
  | long (name : String) (value : Option String)
  | short (letters : List Char)
  | plain
deriving DecidableEq, Repr

def Word.ofText (text : String) : Word :=
  match text.toList with
  | ['-', '-'] => .separator
  | '-' :: '-' :: rest =>
      let name := rest.takeWhile (· != '=')
      match rest.dropWhile (· != '=') with
      | [] => .long (String.ofList name) none
      | _ :: value => .long (String.ofList name) (some (String.ofList value))
  | '-' :: letter :: rest => .short (letter :: rest)
  | _ => .plain

structure Draft where
  file : Option String
  input : Option String
  mode : Option Mode
  compiler : Option String
  flags : List Argument
  verbosity : Nat
deriving DecidableEq, Repr

namespace Draft

def empty : Draft :=
  ⟨none, none, none, none, [], 0⟩

/-- Whether the argument has been given and may not be given again. -/
def has (draft : Draft) : Argument → Bool
  | .file => draft.file.isSome
  | .input => draft.input.isSome
  | .mode => draft.mode.isSome
  | .compiler => draft.compiler.isSome
  | argument => draft.flags.contains argument

def setValue (draft : Draft) (argument : Argument) (value : String) : Except Stop Draft :=
  if draft.has argument then
    .error (.usage (.repeated argument))
  else
    match argument with
    | .mode =>
        match Mode.ofWord? value with
        | some mode => .ok { draft with mode := some mode }
        | none => .error (.usage (.invalidValue .mode value))
    | .compiler => .ok { draft with compiler := some value }
    | .file =>
        if value.isEmpty then .error (.usage (.invalidValue .file value))
        else .ok { draft with file := some value }
    | .input =>
        if value.isEmpty then .error (.usage (.invalidValue .input value))
        else .ok { draft with input := some value }
    | _ => .ok draft

/-- Settle an argument that takes no value.  The verbosity counts up to 255 and no
further. -/
def setFlag (draft : Draft) (long : Bool) (argument : Argument) : Except Stop Draft :=
  match argument with
  | .help => .error (.help long)
  | .version => .error .version
  | .verbose => .ok { draft with verbosity := min 255 (draft.verbosity + 1) }
  | _ =>
      if draft.has argument then
        .error (.usage (.repeated argument))
      else
        .ok { draft with flags := argument :: draft.flags }

def finish (draft : Draft) : Except Stop Options :=
  match draft.file with
  | none => .error (.usage .missingFile)
  | some file =>
      .ok {
        file
        input := draft.input
        mode := draft.mode.getD .interpreter
        noOptimize := draft.has .noOptimize
        checkBounds := draft.has .checkBounds
        compiler := draft.compiler.getD "cc"
        dumpOps := draft.has .dumpOps
        emitC := draft.has .emitC
        verbosity := draft.verbosity }

end Draft

structure Reader where
  draft : Draft
  /-- An argument not looked at yet, and its value unless that is still to come. -/
  pending : Option (Argument × Option String)
  positionals : Nat
  onlyPositionals : Bool
deriving DecidableEq, Repr

namespace Reader

def start : Reader :=
  ⟨.empty, none, 0, false⟩

def settle (reader : Reader) : Except Stop Reader :=
  match reader.pending with
  | none => .ok reader
  | some (argument, none) => .error (.usage (.invalidValue argument ""))
  | some (argument, some value) =>
      match reader.draft.setValue argument value with
      | .ok draft => .ok { reader with draft, pending := none }
      | .error stop => .error stop

def postpone (reader : Reader) (argument : Argument) (value : Option String) :
    Except Stop Reader :=
  reader.settle.map fun settled => { settled with pending := some (argument, value) }

def option (reader : Reader) (argument : Argument) (value : String) : Except Stop Reader :=
  match reader.settle with
  | .error stop => .error stop
  | .ok settled =>
      (settled.draft.setValue argument value).map fun draft => { settled with draft }

def flag (reader : Reader) (long : Bool) (argument : Argument) : Except Stop Reader :=
  match reader.settle with
  | .error stop => .error stop
  | .ok settled =>
      (settled.draft.setFlag long argument).map fun draft => { settled with draft }

/-- Read the letters after one dash.  The rest of the word behind an option that takes a
value is its value, an equals sign in between being dropped. -/
def letters (reader : Reader) : List Char → Except Stop Reader
  | [] => .ok reader
  | letter :: rest =>
      match Argument.ofShort? letter with
      | none => .error (.usage (.unknownArgument ("-" ++ String.singleton letter)))
      | some argument =>
          if argument.takesValue then
            match rest with
            | [] => reader.postpone argument none
            | '=' :: value => reader.option argument (String.ofList value)
            | value => reader.option argument (String.ofList value)
          else
            match reader.flag false argument with
            | .ok next => letters next rest
            | .error stop => .error stop

def long (reader : Reader) (name : String) (value : Option String) : Except Stop Reader :=
  match Argument.ofLong? name with
  | none => .error (.usage (.unknownArgument ("--" ++ name)))
  | some argument =>
      if argument.takesValue then
        match value with
        | none => reader.postpone argument none
        | some value => reader.option argument value
      else
        match value with
        | none => reader.flag true argument
        | some value => .error (.usage (.unexpectedValue argument value))

def positional (reader : Reader) (text : String) : Except Stop Reader :=
  let argument? : Option Argument :=
    match reader.positionals with
    | 0 => some .file
    | 1 => some .input
    | _ => none
  match argument? with
  | none => .error (.usage (.unknownArgument text))
  | some argument =>
      { reader with positionals := reader.positionals + 1 }.postpone argument (some text)

/-- Read a word that is no option: the value an option waits for, or a positional. -/
def plain (reader : Reader) (text : String) : Except Stop Reader :=
  match reader.pending with
  | some (argument, none) => .ok { reader with pending := some (argument, some text) }
  | _ => reader.positional text

def word (reader : Reader) (text : String) : Except Stop Reader :=
  if reader.onlyPositionals then
    reader.positional text
  else
    match Word.ofText text with
    | .separator => .ok { reader with onlyPositionals := true }
    | .long name value => reader.long name value
    | .short letters => reader.letters letters
    | .plain => reader.plain text

def words (reader : Reader) : List String → Except Stop Reader
  | [] => .ok reader
  | text :: rest =>
      match reader.word text with
      | .ok next => words next rest
      | .error stop => .error stop

end Reader

/-- Read a whole command line, without the name of the command. -/
def parse (words : List String) : Except Stop Options :=
  match (Reader.start.words words).bind Reader.settle with
  | .ok reader => reader.draft.finish
  | .error stop => .error stop

end Tapewright.CommandLine
