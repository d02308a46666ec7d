import Tapewright.Program
import Tapewright.Tape

namespace Tapewright.C

/-! The C text of a program.

Every op is one statement on a line of its own, indented by four spaces for each
block it stands in.  Cells are `uint32_t`, so that arithmetic wraps in C exactly as
it does on 32-bit cells, and constants are converted to that type.
-/

inductive Statement where
  | advance (count : Int)
  | retreat (count : Int)
  | add (value : Int)
  | subtract (value : Int)
  | store (value : Int)
  | put
  | get
  | openLoop
  | closeLoop
deriving DecidableEq, Repr

namespace Statement

def ofOp (op : Op) : Statement :=
  match op.opcode with
  | .shiftRight => .advance op.operand.toInt
  | .shiftLeft => .retreat op.operand.toInt
  | .increment => .add op.operand.toInt
  | .decrement => .subtract op.operand.toInt
  | .assign => .store op.operand.toInt
  | .output => .put
  | .input => .get
  | .loopStart => .openLoop
  | .loopEnd => .closeLoop

def text : Statement → String
  | .advance count => "ptr += " ++ toString count ++ ";"
  | .retreat count => "ptr -= " ++ toString count ++ ";"
  | .add value => "*ptr += (uint32_t)" ++ toString value ++ ";"
  | .subtract value => "*ptr -= (uint32_t)" ++ toString value ++ ";"
  | .store value => "*ptr = (uint32_t)" ++ toString value ++ ";"
  | .put => "putchar((unsigned char)*ptr);"
  | .get => "*ptr = (uint32_t)getchar();"
  | .openLoop => "while (*ptr) \x7b"
  | .closeLoop => "\x7d"

/-- The depth of the line a statement is written on, given the depth before it. -/
def lineDepth (depth : Nat) : Statement → Nat
  | .closeLoop => depth - 1
  | _ => depth

def nextDepth (depth : Nat) : Statement → Nat
  | .openLoop => depth + 1
  | .closeLoop => depth - 1
  | _ => depth

end Statement

def line (depth : Nat) (statement : Statement) : String :=
  "".pushn ' ' (4 * depth) ++ statement.text ++ "\n"

/-- Text written so far, and the number of blocks open at its end. -/
structure Writer where
  text : String
  depth : Nat

def Writer.write (writer : Writer) (statement : Statement) : Writer :=
  ⟨writer.text ++ line (statement.lineDepth writer.depth) statement,
    statement.nextDepth writer.depth⟩

def opening : String :=
  "#include <stdint.h>\n" ++
  "#include <stdio.h>\n" ++
  "#include <stdlib.h>\n" ++
  "\n" ++
  "int main(void)\n" ++
  "\x7b\n" ++
  "    uint32_t *tape = calloc(" ++ toString Tape.standardSize ++ ", sizeof *tape);\n" ++
  "    uint32_t *ptr = tape;\n" ++
  "    if (!tape) return 1;\n" ++
  "\n"

def closing : String :=
  "\n" ++
  "fflush(stdout);\n" ++
  "    free(tape);\n" ++
  "    return 0;\n" ++
  "\x7d\n"

def emit (program : Program) : String :=
  ((program.ops.toList.map Statement.ofOp).foldl Writer.write ⟨opening, 1⟩).text ++ closing

end Tapewright.C
