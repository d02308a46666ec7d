import Tapewright.Op

namespace Tapewright

/-! Source text.

Eight characters are commands and every other character is a comment.  The text
is scanned as UTF-8 bytes: all eight commands are ASCII, and no byte of a longer
encoding is, so scanning bytes and scanning characters agree.
-/

inductive Command where
  | right
  | left
  | increment
  | decrement
  | loopStart
  | loopEnd
  | read
  | write
deriving DecidableEq, Repr

namespace Command

def byte : Command → UInt8
  | .right => 62
  | .left => 60
  | .increment => 43
  | .decrement => 45
  | .loopStart => 91
  | .loopEnd => 93
  | .read => 44
  | .write => 46

def ofByte? (byte : UInt8) : Option Command :=
  if byte = 62 then some .right
  else if byte = 60 then some .left
  else if byte = 43 then some .increment
  else if byte = 45 then some .decrement
  else if byte = 91 then some .loopStart
  else if byte = 93 then some .loopEnd
  else if byte = 44 then some .read
  else if byte = 46 then some .write
  else none

def opcode : Command → Opcode
  | .right => .shiftRight
  | .left => .shiftLeft
  | .increment => .increment
  | .decrement => .decrement
  | .loopStart => .loopStart
  | .loopEnd => .loopEnd
  | .read => .input
  | .write => .output

/-- Every command is one unit op; brackets get their operand from resolution. -/
def op (command : Command) : Op :=
  ⟨command.opcode, 1⟩

theorem ofByte?_byte (command : Command) : ofByte? command.byte = some command := by
  cases command <;> rfl

end Command

namespace Source

/-- The unresolved ops of a text, one per command in order. -/
def opsOfBytes (bytes : List UInt8) : List Op :=
  (bytes.filterMap Command.ofByte?).map Command.op

def ops (text : String) : List Op :=
  opsOfBytes text.toUTF8.data.toList

end Source

end Tapewright
