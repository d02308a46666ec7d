import Tapewright.C.Statement
import Tapewright.C.Token

namespace Tapewright.C

/-! Reading C text back into the structure of its main function. -/

/-- Nested statements.  The rest of a block hangs off each of its statements. -/
inductive Block where
  | done
  | act (statement : Statement) (next : Block)
  | loop (body next : Block)
deriving DecidableEq, Repr

structure MainFunction where
  cells : Nat
  body : Block
  /-- The exit status of a run that reaches the end. -/
  status : Int
deriving DecidableEq, Repr

def expect : List Token → List Token → Option (List Token)
  | [], tokens => some tokens
  | _ :: _, [] => none
  | expected :: more, token :: rest => if token = expected then expect more rest else none

/-- Read statements as long as there are any, with the tokens after them.  The
statements read so far are given in reverse. -/
def readStatements (read : List Statement) : List Token → List Statement × List Token
  | .word "ptr" :: .addAssign :: .integer count :: .symbol ';' :: rest =>
      readStatements (.advance count :: read) rest
  | .word "ptr" :: .subAssign :: .integer count :: .symbol ';' :: rest =>
      readStatements (.retreat count :: read) rest
  | .symbol '*' :: .word "ptr" :: .addAssign :: .symbol '(' :: .word "uint32_t" ::
      .symbol ')' :: .integer value :: .symbol ';' :: rest =>
      readStatements (.add value :: read) rest
  | .symbol '*' :: .word "ptr" :: .subAssign :: .symbol '(' :: .word "uint32_t" ::
      .symbol ')' :: .integer value :: .symbol ';' :: rest =>
      readStatements (.subtract value :: read) rest
  | .symbol '*' :: .word "ptr" :: .symbol '=' :: .symbol '(' :: .word "uint32_t" ::
      .symbol ')' :: .integer value :: .symbol ';' :: rest =>
      readStatements (.store value :: read) rest
  | .symbol '*' :: .word "ptr" :: .symbol '=' :: .symbol '(' :: .word "uint32_t" ::
      .symbol ')' :: .word "getchar" :: .symbol '(' :: .symbol ')' :: .symbol ';' :: rest =>
      readStatements (.get :: read) rest
  | .word "putchar" :: .symbol '(' :: .symbol '(' :: .word "unsigned" :: .word "char" ::
      .symbol ')' :: .symbol '*' :: .word "ptr" :: .symbol ')' :: .symbol ';' :: rest =>
      readStatements (.put :: read) rest
  | .word "while" :: .symbol '(' :: .symbol '*' :: .word "ptr" :: .symbol ')' ::
      .symbol '\x7b' :: rest =>
      readStatements (.openLoop :: read) rest
  | .symbol '\x7d' :: rest => readStatements (.closeLoop :: read) rest
  | tokens => (read.reverse, tokens)

/-- Put one more statement in front of a block.  The blocks after the loops that are
still open to the left are kept on a stack. -/
def Block.prepend (statement : Statement) (block : Block) (after : List Block) :
    Option (Block × List Block) :=
  match statement, after with
  | .closeLoop, _ => some (.done, block :: after)
  | .openLoop, next :: outer => some (.loop block next, outer)
  | .openLoop, [] => none
  | _, _ => some (.act statement block, after)

def Block.nest (block : Block) (after : List Block) : List Statement → Option Block
  | [] => if after.isEmpty then some block else none
  | statement :: earlier =>
      match block.prepend statement after with
      | some (wider, outer) => nest wider outer earlier
      | none => none

/-- The block that statements make up, if their braces balance. -/
def Block.ofStatements? (statements : List Statement) : Option Block :=
  nest .done [] statements.reverse

namespace MainFunction

def headTokens : List Token :=
  [.directive "#include <stdint.h>", .directive "#include <stdio.h>",
    .directive "#include <stdlib.h>", .word "int", .word "main", .symbol '(', .word "void",
    .symbol ')', .symbol '\x7b', .word "uint32_t", .symbol '*', .word "tape", .symbol '=',
    .word "calloc", .symbol '(']

def declarationTokens : List Token :=
  [.symbol ',', .word "sizeof", .symbol '*', .word "tape", .symbol ')', .symbol ';',
    .word "uint32_t", .symbol '*', .word "ptr", .symbol '=', .word "tape", .symbol ';',
    .word "if", .symbol '(', .symbol '!', .word "tape", .symbol ')', .word "return",
    .integer 1, .symbol ';']

def cleanupTokens : List Token :=
  [.word "fflush", .symbol '(', .word "stdout", .symbol ')', .symbol ';',
    .word "free", .symbol '(', .word "tape", .symbol ')', .symbol ';', .word "return"]

/-- Read the tokens of a whole file.  The last closing brace is the function's. -/
def ofTokens? (tokens : List Token) : Option MainFunction := do
  let rest ← expect headTokens tokens
  match rest with
  | .integer (.ofNat cells) :: rest =>
      let rest ← expect declarationTokens rest
      let (statements, rest) := readStatements [] rest
      let body ← Block.ofStatements? statements
      let rest ← expect cleanupTokens rest
      match rest with
      | [.integer status, .symbol ';', .symbol '\x7d'] => some ⟨cells, body, status⟩
      | _ => none
  | _ => none

def ofText? (text : String) : Option MainFunction :=
  (tokens? text).bind ofTokens?

end MainFunction

end Tapewright.C
