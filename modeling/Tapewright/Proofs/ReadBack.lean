import Tapewright.Proofs.Nesting
import Tapewright.C.Semantics

namespace Tapewright.C

/-! Emitted text read back.

Every line of emitted text leaves the scanner between two tokens, so the tokens of the text
are the tokens of its lines.  From these the statements of the program come back one by one,
and their nesting is the nesting of its loops.
-/

def scan (scanner : Scanner) (text : List Char) : Option Scanner :=
  text.foldlM Scanner.step scanner

theorem scan_append (scanner : Scanner) (left right : List Char) :
    scan scanner (left ++ right) = (scan scanner left).bind fun middle => scan middle right :=
  List.foldlM_append

theorem scan_cons (scanner : Scanner) (c : Char) (rest : List Char) :
    scan scanner (c :: rest) = (scanner.step c).bind fun next => scan next rest := by
  simp only [scan, List.foldlM_cons]
  rfl

theorem scan_blanks (tokens : List Token) (count : Nat) (rest : List Char) :
    scan ⟨.none, tokens⟩ (List.replicate count ' ' ++ rest) = scan ⟨.none, tokens⟩ rest := by
  induction count with
  | zero => rfl
  | succ count ih => exact ih

theorem scan_digits {digits : List Char} (all : ∀ c ∈ digits, c.isDigit) (negative : Bool)
    (value : Nat) (tokens : List Token) (rest : List Char) :
    scan ⟨.integer negative value, tokens⟩ (digits ++ rest) =
      scan ⟨.integer negative (Nat.ofDigitChars 10 digits value), tokens⟩ rest := by
  induction digits generalizing value with
  | nil => rfl
  | cons c digits ih =>
      have here : c.isDigit := all c (by simp)
      rw [List.cons_append, scan_cons, Nat.ofDigitChars_cons]
      simp only [Scanner.step, here, ↓reduceIte, Option.bind_some]
      exact ih (fun other member => all other (by simp [member])) _

theorem begin_digit {c : Char} (digit : c.isDigit) (tokens : List Token) :
    Scanner.begin tokens c = some ⟨.integer false (Scanner.digit c), tokens⟩ := by
  have range : 48 ≤ c.toNat ∧ c.toNat ≤ 57 := Char.isDigit_iff_toNat.mp digit
  have small : c.toNat - 48 < 10 := by omega
  have shape : c = (c.toNat - 48).digitChar := by
    apply Char.toNat_inj.mp
    rw [Nat.toNat_digitChar_of_lt_ten small]
    omega
  have neither : ∀ value < 10, Scanner.isBlank value.digitChar = false ∧
      Scanner.isWordStart value.digitChar = false := by decide
  obtain ⟨noBlank, noWord⟩ := neither _ small
  rw [← shape] at noBlank noWord
  simp [Scanner.begin, noBlank, noWord, digit]

theorem step_minus_digit {c : Char} (digit : c.isDigit) (tokens : List Token) :
    Scanner.step ⟨.minus, tokens⟩ c = some ⟨.integer true (Scanner.digit c), tokens⟩ := by
  have other : c ≠ '=' := by
    rintro rfl
    cases digit
  simp [Scanner.step, other, digit]

theorem scan_natural (value : Nat) (tokens : List Token) (rest : List Char) :
    scan ⟨.none, tokens⟩ (Nat.toDigits 10 value ++ rest) = scan ⟨.integer false value, tokens⟩ rest ∧
    scan ⟨.minus, tokens⟩ (Nat.toDigits 10 value ++ rest) = scan ⟨.integer true value, tokens⟩ rest := by
  have all : ∀ c ∈ Nat.toDigits 10 value, c.isDigit := fun c member =>
    Nat.isDigit_of_mem_toDigits (by decide) (by decide) member
  have back : Nat.ofDigitChars 10 (Nat.toDigits 10 value) 0 = value := Nat.ofDigitChars_ten_toDigits
  cases digits : Nat.toDigits 10 value with
  | nil => exact absurd digits Nat.toDigits_ne_nil
  | cons c more =>
      rw [digits] at all back
      have first : c.isDigit := all c (by simp)
      have others : ∀ c ∈ more, c.isDigit := fun other member => all other (by simp [member])
      have whole : Nat.ofDigitChars 10 more (Scanner.digit c) = value := by
        rw [Nat.ofDigitChars_cons, Nat.mul_zero, Nat.zero_add] at back
        exact back
      constructor
      · rw [List.cons_append, scan_cons, Scanner.step, begin_digit first, Option.bind_some,
          scan_digits others, whole]
      · rw [List.cons_append, scan_cons, step_minus_digit first, Option.bind_some,
          scan_digits others, whole]

theorem toList_ofNat (count : Nat) : (toString (Int.ofNat count)).toList = Nat.toDigits 10 count := by
  rw [Int.toString_eq_repr, Int.repr, Nat.toList_repr]

theorem toList_negSucc (count : Nat) :
    (toString (Int.negSucc count)).toList = '-' :: Nat.toDigits 10 (count + 1) := by
  simp [Int.toString_eq_repr, Int.repr, Nat.toList_repr]

theorem scan_integer (value : Int) (tokens : List Token) (rest : List Char) :
    scan ⟨.none, tokens⟩ ((toString value).toList ++ ';' :: rest) =
      scan ⟨.none, .symbol ';' :: .integer value :: tokens⟩ rest := by
  cases value with
  | ofNat count =>
      rw [toList_ofNat, (scan_natural ..).1]
      rfl
  | negSucc count =>
      rw [toList_negSucc, List.cons_append, scan_cons]
      exact (scan_natural (count + 1) tokens (';' :: rest)).2

def Statement.tokens : Statement → List Token
  | .advance count => [.word "ptr", .addAssign, .integer count, .symbol ';']
  | .retreat count => [.word "ptr", .subAssign, .integer count, .symbol ';']
  | .add value =>
      [.symbol '*', .word "ptr", .addAssign, .symbol '(', .word "uint32_t", .symbol ')',
        .integer value, .symbol ';']
  | .subtract value =>
      [.symbol '*', .word "ptr", .subAssign, .symbol '(', .word "uint32_t", .symbol ')',
        .integer value, .symbol ';']
  | .store value =>
      [.symbol '*', .word "ptr", .symbol '=', .symbol '(', .word "uint32_t", .symbol ')',
        .integer value, .symbol ';']
  | .put =>
      [.word "putchar", .symbol '(', .symbol '(', .word "unsigned", .word "char", .symbol ')',
        .symbol '*', .word "ptr", .symbol ')', .symbol ';']
  | .get =>
      [.symbol '*', .word "ptr", .symbol '=', .symbol '(', .word "uint32_t", .symbol ')',
        .word "getchar", .symbol '(', .symbol ')', .symbol ';']
  | .openLoop =>
      [.word "while", .symbol '(', .symbol '*', .word "ptr", .symbol ')', .symbol '\x7b']
  | .closeLoop => [.symbol '\x7d']

theorem scan_fixed {front : List Char} {before tokens : List Token}
    (fixed : scan ⟨.none, tokens⟩ front = some ⟨.none, before⟩) (rest : List Char) :
    scan ⟨.none, tokens⟩ (front ++ rest) = scan ⟨.none, before⟩ rest := by
  rw [scan_append, fixed, Option.bind_some]

theorem scan_constant {front : String} {before tokens : List Token}
    (fixed : scan ⟨.none, tokens⟩ front.toList = some ⟨.none, before⟩) (value : Int)
    (rest : List Char) :
    scan ⟨.none, tokens⟩ ((front ++ toString value ++ ";").toList ++ rest) =
      scan ⟨.none, .symbol ';' :: .integer value :: before⟩ rest := by
  have text : (front ++ toString value ++ ";").toList ++ rest =
      front.toList ++ ((toString value).toList ++ ';' :: rest) := by
    simp
  rw [text, scan_fixed fixed, scan_integer]

theorem scan_statement (statement : Statement) (tokens : List Token) (rest : List Char) :
    scan ⟨.none, tokens⟩ (statement.text.toList ++ rest) =
      scan ⟨.none, statement.tokens.reverse ++ tokens⟩ rest := by
  cases statement with
  | put | get | openLoop | closeLoop => exact scan_fixed rfl rest
  | advance value | retreat value | add value | subtract value | store value =>
      exact scan_constant rfl value rest

theorem toList_indent (count : Nat) : ("".pushn ' ' count).toList = List.replicate count ' ' := by
  rw [String.pushn_eq_repeat_push]
  induction count with
  | zero => rfl
  | succ count ih => rw [Nat.repeat, String.toList_push, ih, List.replicate_succ']

theorem scan_line (depth : Nat) (statement : Statement) (tokens : List Token) :
    scan ⟨.none, tokens⟩ (line depth statement).toList =
      some ⟨.none, statement.tokens.reverse ++ tokens⟩ := by
  have text : (line depth statement).toList =
      List.replicate (4 * depth) ' ' ++ (statement.text.toList ++ ['\n']) := by
    simp [line, toList_indent]
  rw [text, scan_blanks, scan_statement]
  rfl

theorem scan_write {scanner : Scanner} {writer : Writer} {tokens : List Token}
    (before : scan scanner writer.text.toList = some ⟨.none, tokens⟩) (statements : List Statement) :
    scan scanner (statements.foldl Writer.write writer).text.toList =
      some ⟨.none, (statements.flatMap Statement.tokens).reverse ++ tokens⟩ := by
  induction statements generalizing writer tokens with
  | nil => exact before
  | cons statement rest ih =>
      have written : scan scanner (writer.write statement).text.toList =
          some ⟨.none, statement.tokens.reverse ++ tokens⟩ := by
        rw [Writer.write, String.toList_append, scan_append, before]
        exact scan_line _ statement tokens
      simpa using ih written

def openingTokens (cells : Nat) : List Token :=
  MainFunction.headTokens ++ .integer cells :: MainFunction.declarationTokens

def closingTokens : List Token :=
  MainFunction.cleanupTokens ++ [.integer 0, .symbol ';', .symbol '\x7d']

set_option maxRecDepth 2000 in
theorem scan_head :
    scan ⟨.none, []⟩ ("#include <stdint.h>\n" ++ "#include <stdio.h>\n" ++ "#include <stdlib.h>\n" ++
      "\n" ++ "int main(void)\n" ++ "\x7b\n" ++ "    uint32_t *tape = calloc(").toList =
      some ⟨.none, MainFunction.headTokens.reverse⟩ := by
  simp only [String.toList_append, String.reduceToList, List.cons_append, List.nil_append]
  rfl

set_option maxRecDepth 2000 in
theorem scan_declarations (cells : Nat) (tokens : List Token) :
    scan ⟨.integer false cells, tokens⟩ (", sizeof *tape);\n" ++ ("    uint32_t *ptr = tape;\n" ++
      ("    if (!tape) return 1;\n" ++ "\n"))).toList =
      some ⟨.none, MainFunction.declarationTokens.reverse ++ .integer cells :: tokens⟩ := by
  simp only [String.toList_append, String.reduceToList, List.cons_append, List.nil_append]
  rfl

theorem scan_opening :
    scan ⟨.none, []⟩ opening.toList = some ⟨.none, (openingTokens Tape.standardSize).reverse⟩ := by
  -- The size must stay a name: written out, it would be computed digit by digit.
  unfold opening
  generalize Tape.standardSize = cells
  rw [String.append_assoc, String.append_assoc, String.append_assoc, String.append_assoc,
    String.toList_append, scan_fixed scan_head, String.toList_append, Nat.toString_eq_repr,
    Nat.toList_repr, (scan_natural ..).1, scan_declarations, openingTokens]
  simp

theorem scan_closing (tokens : List Token) :
    scan ⟨.none, tokens⟩ closing.toList = some ⟨.none, closingTokens.reverse ++ tokens⟩ := by
  simp only [closing, String.toList_append, String.reduceToList, List.cons_append, List.nil_append]
  rfl

theorem tokens?_emit (program : Program) :
    tokens? (emit program) = some (openingTokens Tape.standardSize ++
      (program.ops.toList.map Statement.ofOp).flatMap Statement.tokens ++ closingTokens) := by
  have whole : scan ⟨.none, []⟩ (emit program).toList = some ⟨.none, closingTokens.reverse ++
      (((program.ops.toList.map Statement.ofOp).flatMap Statement.tokens).reverse ++
        (openingTokens Tape.standardSize).reverse)⟩ := by
    rw [emit, String.toList_append, scan_append, @scan_write _ ⟨opening, 1⟩ _ scan_opening,
      Option.bind_some, scan_closing]
  rw [scan] at whole
  simp [tokens?, whole, Scanner.finish]

theorem readStatements_tokens (read : List Statement) (statement : Statement) (rest : List Token) :
    readStatements read (statement.tokens ++ rest) = readStatements (statement :: read) rest := by
  cases statement <;> rfl

theorem readStatements_closing (read : List Statement) :
    readStatements read closingTokens = (read.reverse, closingTokens) := rfl

theorem readStatements_all (read statements : List Statement) (rest : List Token) :
    readStatements read (statements.flatMap Statement.tokens ++ rest) =
      readStatements (statements.reverse ++ read) rest := by
  induction statements generalizing read with
  | nil => rfl
  | cons statement more ih =>
      rw [List.flatMap_cons, List.append_assoc, readStatements_tokens, ih]
      simp

theorem expect_append (expected rest : List Token) : expect expected (expected ++ rest) = some rest := by
  induction expected with
  | nil => rfl
  | cons token more ih => simpa [expect] using ih

/-- The block of a tree, with what follows it. -/
def Block.ofTree : LoopTree → Block → Block
  | .done, rest => rest
  | .act _ op next, rest => .act (.ofOp op) (ofTree next rest)
  | .loop _ body next, rest => .loop (ofTree body .done) (ofTree next rest)

theorem prepend_plain {op : Op} (plain : op.IsPlain) (block : Block) (after : List Block) :
    block.prepend (.ofOp op) after = some (.act (.ofOp op) block, after) := by
  obtain ⟨opcode, operand⟩ := op
  cases opcode <;> first | rfl | simp [Op.IsPlain] at plain

theorem nest_resolved {index : Nat} {ops : List Op} {tree : LoopTree} (nests : Nests index ops tree)
    (block : Block) (after : List Block) (earlier : List Statement) :
    block.nest after ((tree.resolved.map Statement.ofOp).reverse ++ earlier) =
      (Block.ofTree tree block).nest after earlier := by
  induction nests generalizing block after earlier with
  | done => rfl
  | @act _ op _ next plain _ ih =>
      have tail := ih block after (.ofOp op :: earlier)
      simp only [LoopTree.resolved, List.map_cons, List.reverse_cons, List.append_assoc,
        List.singleton_append, tail, Block.nest, prepend_plain plain, Block.ofTree]
  | @loop index _ _ _ _ body next _ _ _ _ insideIH tailIH =>
      have tail := tailIH block after
        (.closeLoop :: ((body.resolved.map Statement.ofOp).reverse ++ .openLoop :: earlier))
      have inside := insideIH .done (Block.ofTree next block :: after) (.openLoop :: earlier)
      simp only [LoopTree.resolved, List.map_cons, List.map_append, List.reverse_cons,
        List.reverse_append, List.append_assoc, List.cons_append, List.nil_append, Statement.ofOp,
        tail, Block.nest, Block.prepend, inside, Block.ofTree]

/-- Emitted text reads back as a main function whose body is the tree of the program. -/
theorem ofText?_emit {index : Nat} {ops : List Op} {tree : LoopTree} {program : Program}
    (nests : Nests index ops tree) (same : program.ops.toList = tree.resolved) :
    MainFunction.ofText? (emit program) =
      some ⟨Tape.standardSize, Block.ofTree tree .done, 0⟩ := by
  have nested : Block.ofStatements? (program.ops.toList.map Statement.ofOp) =
      some (Block.ofTree tree .done) := by
    rw [same, Block.ofStatements?]
    simpa [Block.nest] using nest_resolved nests .done [] []
  have read : readStatements [] ((program.ops.toList.map Statement.ofOp).flatMap Statement.tokens ++
      closingTokens) = (program.ops.toList.map Statement.ofOp, closingTokens) := by
    rw [readStatements_all, readStatements_closing, List.append_nil, List.reverse_reverse]
  rw [MainFunction.ofText?, tokens?_emit, Option.bind_some, MainFunction.ofTokens?, openingTokens]
  generalize Tape.standardSize = cells
  simp only [List.append_assoc, List.cons_append, expect_append, Option.bind_eq_bind,
    Option.bind_some]
  rw [read, nested, Option.bind_some, closingTokens, expect_append, Option.bind_some]
  rfl

end Tapewright.C
