import Tapewright.Text.Line

namespace Tapewright.Log

/-! Log events.

An event has a level, the part of the program it comes from, a message, and named
fields.  Durations and temporary paths differ from run to run, so their values are
left out of the event and written as an underscore.

An event takes one line.  Characters of the message that a terminal would obey are
written as escapes; whatever else holds a line end cuts the line short.
-/

inductive Level where
  | error
  | warn
  | info
  | debug
  | trace
deriving DecidableEq, Repr

/-- How much a level lets through: an event passes when its level is at most as
detailed as the one allowed. -/
def Level.detail : Level → Nat
  | .error => 1
  | .warn => 2
  | .info => 3
  | .debug => 4
  | .trace => 5

def Level.name : Level → String
  | .error => "ERROR"
  | .warn => "WARN"
  | .info => "INFO"
  | .debug => "DEBUG"
  | .trace => "TRACE"

inductive Target where
  | commandLine
  | peephole
  | brackets
  | aheadOfTime
  | native
  | interpreter
deriving DecidableEq, Repr

def Target.path : Target → String
  | .commandLine => "brainforge"
  | .peephole => "brainforge::brainfuck::optimize"
  | .brackets => "brainforge::brainfuck::program"
  | .aheadOfTime => "brainforge::brainfuck::aot"
  | .native => "brainforge::brainfuck::jit::x86_64"
  | .interpreter => "brainforge::brainfuck::interpreter"

structure Event where
  level : Level
  target : Target
  message : String
  /-- Fields with their written values; `none` for a value that varies. -/
  fields : List (String × Option String)
deriving DecidableEq, Repr

def hexDigits (code : Nat) : String :=
  String.ofList (Nat.toDigits 16 code)

/-- A character of a message: escape, bell, backspace, form feed and delete are written
with two hexadecimal digits, and the controls of the upper half in braces. -/
def escapedChar (c : Char) : String :=
  if c = '\x07' ∨ c = '\x08' ∨ c = '\x0c' then "\\x0" ++ hexDigits c.toNat
  else if c = '\x1b' ∨ c = '\x7f' then "\\x" ++ hexDigits c.toNat
  else if 0x80 ≤ c.toNat ∧ c.toNat ≤ 0x9f then "\\u\x7b" ++ hexDigits c.toNat ++ "\x7d"
  else String.singleton c

def escaped (message : String) : String :=
  String.join (message.toList.map escapedChar)

def varyingNames : List String :=
  ["elapsed", "compiled", "exe"]

/-- A word of a line; one that sets a varying field loses its value, wherever it
stands. -/
def steadyWord (word : List Char) : List Char :=
  let name := word.takeWhile (· != '=')
  if name.length < word.length ∧ String.ofList name ∈ varyingNames then name ++ ['=', '_']
  else word

def renderField (field : String × Option String) : String :=
  " " ++ field.1 ++ "=" ++ field.2.getD "_"

def Event.text (event : Event) : String :=
  event.level.name ++ " " ++ event.target.path ++ ": " ++ escaped event.message ++
    String.join (event.fields.map renderField)

def Event.render (event : Event) : String :=
  let words := (Text.firstLine event.text.toList).splitOn ' '
  String.ofList ([' '].intercalate (words.map steadyWord))

def count (name : String) (value : Nat) : String × Option String :=
  (name, some (toString value))

def varying (name : String) : String × Option String :=
  (name, none)

end Tapewright.Log
