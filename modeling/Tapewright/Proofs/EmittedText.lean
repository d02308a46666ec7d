import Mathlib.Data.List.Forall2
import Tapewright.Proofs.Pairing
import Tapewright.Proofs.ReadBack

namespace Tapewright.C

/-! The layout of emitted text.

The ops of a resolved program never end a loop that they have not started, so the depth that the writer
keeps is one more than the number of open loops.  Every op has one line, indented by the loops around
it, and the braces of the lines balance.  All that the lines do not show is what input and output carry;
brackets find their partners again by nesting.
-/

section Depth

/-- How many loops are open at the op at an index.  A loop end stands outside the loop that it
closes, as the start of the loop does. -/
def openLoops (ops : List Op) (index : Nat) : Nat :=
  starts (ops.take index) - ends (ops.take (index + 1))

/-- No more loops are ended than are open before the ops or started by them. -/
def EndsWithin (depth : Nat) (ops : List Op) : Prop :=
  ∀ count, ends (ops.take count) ≤ depth + starts (ops.take count)

/-- The depth after statements, given the depth before them. -/
def depthAfter (depth : Nat) (statements : List Statement) : Nat :=
  statements.foldl (fun depth statement => statement.nextDepth depth) depth

variable {op : Op} {ops rest : List Op} {depth index : Nat}

theorem lineDepth_ofOp (depth : Nat) (op : Op) :
    (Statement.ofOp op).lineDepth depth = depth - ends [op] := by
  obtain ⟨opcode, operand⟩ := op
  cases opcode <;> rfl

theorem nextDepth_ofOp (depth : Nat) (op : Op) :
    (Statement.ofOp op).nextDepth depth = depth + starts [op] - ends [op] := by
  obtain ⟨opcode, operand⟩ := op
  cases opcode <;> rfl

theorem EndsWithin.step (within : EndsWithin depth (op :: rest)) :
    ends [op] ≤ depth + starts [op] ∧ EndsWithin (depth + starts [op] - ends [op]) rest := by
  have here : ends [op] ≤ depth + starts [op] := within 1
  refine ⟨here, fun count => ?_⟩
  have later := within (count + 1)
  rw [List.take_succ_cons, ends_cons, starts_cons] at later
  omega

theorem EndsWithin.take (within : EndsWithin depth ops) (index : Nat) :
    EndsWithin depth (ops.take index) := by
  intro count
  rw [List.take_take]
  exact within _

theorem endsWithin_of_balanced (balanced : Balanced ops) (depth : Nat) : EndsWithin depth ops :=
  fun count => Nat.le_trans (balanced.started count) (Nat.le_add_left ..)

theorem depthAfter_ofOp (within : EndsWithin depth ops) :
    depthAfter depth (ops.map Statement.ofOp) = depth + starts ops - ends ops := by
  induction ops generalizing depth with
  | nil => rfl
  | cons op rest ih =>
      obtain ⟨here, later⟩ := within.step
      have next := ih later
      rw [depthAfter] at next
      rw [List.map_cons, depthAfter, List.foldl_cons, nextDepth_ofOp, next, @starts_cons op rest,
        @ends_cons op rest]
      omega

theorem take_succ_of_found (found : ops[index]? = some op) :
    starts (ops.take (index + 1)) = starts (ops.take index) + starts [op] ∧
    ends (ops.take (index + 1)) = ends (ops.take index) + ends [op] := by
  rw [List.take_add_one, found, starts_append, ends_append]
  exact ⟨rfl, rfl⟩

end Depth

section Lines

/-- The lines of statements without their line ends, given the depth before them. -/
def lines (depth : Nat) : List Statement → List String
  | [] => []
  | statement :: rest =>
      ("".pushn ' ' (4 * statement.lineDepth depth) ++ statement.text) ::
        lines (statement.nextDepth depth) rest

theorem length_lines (depth : Nat) (statements : List Statement) :
    (lines depth statements).length = statements.length := by
  induction statements generalizing depth with
  | nil => rfl
  | cons statement rest ih => simp [lines, ih]

theorem getElem?_lines (depth : Nat) (statements : List Statement) (index : Nat) :
    (lines depth statements)[index]? = statements[index]?.map fun statement =>
      "".pushn ' ' (4 * statement.lineDepth (depthAfter depth (statements.take index))) ++
        statement.text := by
  induction statements generalizing depth index with
  | nil => rfl
  | cons statement rest ih =>
      cases index with
      | zero => rfl
      | succ index => exact ih (statement.nextDepth depth) index

theorem text_foldl_write (writer : Writer) (statements : List Statement) :
    (statements.foldl Writer.write writer).text =
      writer.text ++ String.join ((lines writer.depth statements).map (· ++ "\n")) := by
  induction statements generalizing writer with
  | nil => simp [lines]
  | cons statement rest ih =>
      rw [List.foldl_cons, ih, Writer.write, line, lines, List.map_cons, String.join_cons,
        String.append_assoc]

theorem depth_foldl_write (writer : Writer) (statements : List Statement) :
    (statements.foldl Writer.write writer).depth = depthAfter writer.depth statements := by
  induction statements generalizing writer with
  | nil => rfl
  | cons statement rest ih => exact ih (writer.write statement)

/-- The number of blanks that a line starts with. -/
def leadingBlanks (line : String) : Nat :=
  (line.toList.takeWhile (· == ' ')).length

/-- A text with neither line ends nor braces. -/
def Quiet (text : List Char) : Prop :=
  '\n' ∉ text ∧ '\x7b' ∉ text ∧ '\x7d' ∉ text

instance (text : List Char) : Decidable (Quiet text) :=
  inferInstanceAs (Decidable (_ ∧ _ ∧ _))

theorem quiet_append {left right : List Char} :
    Quiet (left ++ right) ↔ Quiet left ∧ Quiet right := by
  simp only [Quiet, List.mem_append, not_or]
  tauto

theorem quiet_cons {c : Char} {rest : List Char} : Quiet (c :: rest) ↔ Quiet [c] ∧ Quiet rest :=
  @quiet_append [c] rest

theorem quiet_digits {digits : List Char} (all : ∀ c ∈ digits, c.isDigit) : Quiet digits := by
  refine ⟨?_, ?_, ?_⟩ <;> exact fun member => absurd (all _ member) (by decide)

theorem quiet_blanks (count : Nat) : Quiet ("".pushn ' ' count).toList := by
  rw [toList_indent]
  refine ⟨?_, ?_, ?_⟩ <;> exact fun member => absurd (List.eq_of_mem_replicate member) (by decide)

theorem quiet_integer (value : Int) : Quiet (toString value).toList := by
  have natural (count : Nat) : Quiet (Nat.toDigits 10 count) :=
    quiet_digits fun c member => Nat.isDigit_of_mem_toDigits (by decide) (by decide) member
  cases value with
  | ofNat count =>
      rw [toList_ofNat]
      exact natural count
  | negSucc count =>
      rw [toList_negSucc]
      exact quiet_cons.mpr ⟨by decide, natural _⟩

theorem quiet_constant {front : String} (fixed : Quiet front.toList) (value : Int) :
    Quiet (front ++ toString value ++ ";").toList := by
  rw [String.toList_append, String.toList_append, quiet_append, quiet_append]
  exact ⟨⟨fixed, quiet_integer value⟩, by decide⟩

theorem quiet_text {statement : Statement} (noStart : statement ≠ .openLoop)
    (noEnd : statement ≠ .closeLoop) : Quiet statement.text.toList := by
  cases statement with
  | openLoop => exact absurd rfl noStart
  | closeLoop => exact absurd rfl noEnd
  | put | get =>
      simp only [Statement.text.eq_def, String.reduceToList]
      decide
  | advance value | retreat value | add value | subtract value | store value =>
      refine quiet_constant ?_ value
      simp only [String.reduceToList]
      decide

theorem text_head (statement : Statement) :
    ∃ c rest, statement.text.toList = c :: rest ∧ c ≠ ' ' := by
  cases statement with
  | put | get | openLoop | closeLoop =>
      simp only [Statement.text.eq_def, String.reduceToList]
      exact ⟨_, _, rfl, by decide⟩
  | advance value | retreat value | add value | subtract value | store value =>
      simp only [Statement.text.eq_def, String.toList_append, String.reduceToList, List.cons_append]
      exact ⟨_, _, rfl, by decide⟩

theorem leadingBlanks_indented (count : Nat) (statement : Statement) :
    leadingBlanks ("".pushn ' ' count ++ statement.text) = count := by
  obtain ⟨c, rest, shape, other⟩ := text_head statement
  have blanks : ∀ c ∈ List.replicate count ' ', c == ' ' := by simp
  rw [leadingBlanks, String.toList_append, toList_indent, List.takeWhile_append_of_pos blanks, shape,
    List.takeWhile_cons_of_neg (by simpa using other), List.append_nil, List.length_replicate]

theorem unbroken_text (statement : Statement) : '\n' ∉ statement.text.toList := by
  by_cases start : statement = .openLoop
  · simp [start, Statement.text.eq_def]
  by_cases stop : statement = .closeLoop
  · simp [stop, Statement.text.eq_def]
  · exact fun member => (quiet_text start stop).1 member

end Lines

section Braces

variable {ops : List Op} {depth : Nat}

/-- How many braces are open after one more character.  A brace that closes nothing has no place. -/
def braceStep (depth : Nat) (c : Char) : Option Nat :=
  if c = '\x7b' then some (depth + 1)
  else if c = '\x7d' then if depth = 0 then none else some (depth - 1)
  else some depth

def openBraces (depth : Nat) (text : List Char) : Option Nat :=
  text.foldlM braceStep depth

theorem openBraces_append (depth : Nat) (left right : List Char) :
    openBraces depth (left ++ right) = (openBraces depth left).bind (openBraces · right) :=
  List.foldlM_append

theorem openBraces_quiet {text : List Char} (quiet : Quiet text) (depth : Nat) :
    openBraces depth text = some depth := by
  induction text with
  | nil => rfl
  | cons c rest ih =>
      obtain ⟨⟨_, noStart, noEnd⟩, others⟩ := quiet_cons.mp quiet
      have same : braceStep depth c = some depth := by
        rw [braceStep, if_neg (fun same => noStart (by simp [same])),
          if_neg (fun same => noEnd (by simp [same]))]
      rw [openBraces, List.foldlM_cons, same]
      exact ih others

theorem ofOp_of_plain {op : Op} (plain : op.IsPlain) :
    Statement.ofOp op ≠ .openLoop ∧ Statement.ofOp op ≠ .closeLoop := by
  obtain ⟨opcode, operand⟩ := op
  cases opcode <;> simp_all [Op.IsPlain, Statement.ofOp]

/-- A statement opens and closes as many braces as its op starts and ends loops. -/
theorem openBraces_text {op : Op} (within : ends [op] ≤ depth + starts [op]) :
    openBraces depth (Statement.ofOp op).text.toList = some (depth + starts [op] - ends [op]) := by
  by_cases start : op.opcode = .loopStart
  · obtain ⟨opened, notEnded⟩ := counts_start start
    have shape : (Statement.ofOp op).text.toList = "while (*ptr) ".toList ++ ['\x7b'] := by
      simp [Statement.ofOp, start, Statement.text.eq_def]
    have quiet : Quiet "while (*ptr) ".toList := by
      simp only [String.reduceToList]
      decide
    rw [shape, openBraces_append, openBraces_quiet quiet, opened, notEnded]
    rfl
  by_cases stop : op.opcode = .loopEnd
  · obtain ⟨notOpened, closed⟩ := counts_end stop
    have shape : (Statement.ofOp op).text.toList = ['\x7d'] := by
      simp [Statement.ofOp, stop, Statement.text.eq_def]
    have deep : depth ≠ 0 := by omega
    rw [shape, notOpened, closed]
    simp [openBraces, braceStep, deep]
  · obtain ⟨notOpened, notClosed⟩ := counts_plain ⟨start, stop⟩
    obtain ⟨noStart, noEnd⟩ := ofOp_of_plain ⟨start, stop⟩
    rw [openBraces_quiet (quiet_text noStart noEnd), notOpened, notClosed]
    rfl

theorem openBraces_lines (within : EndsWithin depth ops) (indent : Nat) :
    openBraces depth ((lines indent (ops.map Statement.ofOp)).flatMap String.toList) =
      some (depth + starts ops - ends ops) := by
  induction ops generalizing depth indent with
  | nil => rfl
  | cons op rest ih =>
      obtain ⟨here, later⟩ := within.step
      rw [List.map_cons, lines, List.flatMap_cons, String.toList_append, List.append_assoc,
        openBraces_append, openBraces_quiet (quiet_blanks _), Option.bind_some, openBraces_append,
        openBraces_text here, Option.bind_some, ih later, @starts_cons op rest, @ends_cons op rest]
      congr 1
      omega

end Braces

section Layouts

/-- The writer when the ops before an index have been written. -/
def writerAt (program : Program) (index : Nat) : Writer :=
  ((program.ops.toList.take index).map Statement.ofOp).foldl Writer.write ⟨opening, 1⟩

/-- How the text of a program is laid out, given the lines of its body. -/
structure Layout (program : Program) (body : List String) : Prop where
  text : emit program = opening ++ String.join (body.map (· ++ "\n")) ++ closing
  unbroken : ∀ line ∈ body, '\n' ∉ line.toList
  /-- One line for each op. -/
  count : body.length = program.size
  /-- The line of an op is its statement, behind four blanks for the block of the function and for
  each open loop. -/
  indented : ∀ {index op}, program.ops[index]? = some op → ∃ line, body[index]? = some line ∧
    leadingBlanks line = 4 * (1 + openLoops program.ops.toList index) ∧
    line = "".pushn ' ' (leadingBlanks line) ++ (Statement.ofOp op).text
  /-- A loop end stands as deep as its loop start. -/
  paired : ∀ {start stop}, program.Holds .loopStart start stop →
    openLoops program.ops.toList stop = openLoops program.ops.toList start
  /-- The writer never leaves the block of the function. -/
  inside : ∀ {index op}, program.ops[index]? = some op → op.opcode = .loopEnd →
    1 < (writerAt program index).depth
  braces : openBraces 0 (body.flatMap String.toList) = some 0

variable {program : Program} {index : Nat} {op : Op}

theorem found_toList (found : program.ops[index]? = some op) : program.ops.toList[index]? = some op :=
  (Array.getElem?_toList ..).trans found

theorem depth_writerAt (balanced : Balanced program.ops.toList) (index : Nat) :
    (writerAt program index).depth =
      1 + starts (program.ops.toList.take index) - ends (program.ops.toList.take index) := by
  rw [writerAt, depth_foldl_write, depthAfter_ofOp ((endsWithin_of_balanced balanced 1).take index)]

/-- A line is indented by the block of the function and by the loops that are open at its op. -/
theorem lineDepth_eq (balanced : Balanced program.ops.toList) (found : program.ops[index]? = some op) :
    (Statement.ofOp op).lineDepth
        (depthAfter 1 ((program.ops.toList.map Statement.ofOp).take index)) =
      1 + openLoops program.ops.toList index := by
  have before := balanced.started index
  have after := balanced.started (index + 1)
  obtain ⟨started, ended⟩ := take_succ_of_found (found_toList found)
  rw [← List.map_take, depthAfter_ofOp ((endsWithin_of_balanced balanced 1).take index),
    lineDepth_ofOp, openLoops, ended]
  have single : ends [op] = 0 ∨ starts [op] = 0 := by
    by_cases stop : op.opcode = .loopEnd
    · exact .inr (counts_end stop).1
    · by_cases start : op.opcode = .loopStart
      · exact .inl (counts_start start).2
      · exact .inl (counts_plain ⟨start, stop⟩).2
  omega

theorem line_of_found (balanced : Balanced program.ops.toList) (found : program.ops[index]? = some op) :
    (lines 1 (program.ops.toList.map Statement.ofOp))[index]? =
      some ("".pushn ' ' (4 * (1 + openLoops program.ops.toList index)) ++ (Statement.ofOp op).text) := by
  rw [getElem?_lines, List.getElem?_map, found_toList found, Option.map_some, Option.map_some,
    lineDepth_eq balanced found]

/-- The ops between a loop start and its loop end leave open what was open before them. -/
theorem openLoops_paired {ops : List Op} {start stop : Nat} (pairing : Program.Pairing ops program)
    (pair : program.Holds .loopStart start stop) :
    openLoops program.ops.toList stop = openLoops program.ops.toList start := by
  obtain ⟨first, found, kind, held⟩ := pair
  obtain ⟨close, forward, ⟨again, sameFound, _, sameHeld⟩, ⟨last, foot, ends_, _⟩, balanced⟩ :=
    pairing.closed found kind
  rw [found] at sameFound
  cases sameFound
  obtain rfl : close = stop := Int.ofNat_inj.mp (sameHeld.symm.trans held)
  have between : program.ops.toList.take close =
      program.ops.toList.take start ++ first :: program.slice (start + 1) close := by
    rw [← Program.slice_cons found forward]
    exact (Program.slice_append found (Nat.zero_le _) (Nat.le_of_lt forward)).symm
  obtain ⟨opened, notEnded⟩ := counts_start kind
  obtain ⟨notOpened, closed⟩ := counts_end ends_
  obtain ⟨_, endsFirst⟩ := take_succ_of_found (found_toList found)
  obtain ⟨_, endsLast⟩ := take_succ_of_found (found_toList foot)
  have inner := balanced.ended
  rw [openLoops, openLoops, endsFirst, endsLast, between, starts_append, ends_append, starts_cons,
    ends_cons]
  omega

theorem layout_of_resolve {ops : List Op} (resolved : Program.resolve ops = .ok program) :
    Layout program (lines 1 (program.ops.toList.map Statement.ofOp)) := by
  have pairing := Program.pairing_of_resolve resolved
  obtain ⟨tree, nests, _⟩ := Program.resolve_eq_ok_iff.mp resolved
  have balanced : Balanced program.ops.toList := (nests.of_bare pairing.same).balanced
  constructor
  case text => rw [emit, text_foldl_write]
  case unbroken =>
    intro line member
    obtain ⟨index, found⟩ := List.getElem?_of_mem member
    rw [getElem?_lines] at found
    obtain ⟨statement, _, rfl⟩ := Option.map_eq_some_iff.mp found
    simpa [toList_indent] using unbroken_text statement
  case count =>
    rw [length_lines, List.length_map, Array.length_toList]
    rfl
  case indented =>
    intro index op found
    refine ⟨_, line_of_found balanced found, leadingBlanks_indented .., ?_⟩
    rw [leadingBlanks_indented]
  case paired => exact openLoops_paired pairing
  case inside =>
    intro index op found stop
    have after := balanced.started (index + 1)
    obtain ⟨started, ended⟩ := take_succ_of_found (found_toList found)
    obtain ⟨notOpened, closed⟩ := counts_end stop
    rw [depth_writerAt balanced]
    omega
  case braces =>
    rw [openBraces_lines (endsWithin_of_balanced balanced 0), balanced.ended, Nat.zero_add, Nat.sub_self]

end Layouts

section Reading

/-- The op as it can be read back from the text: input and output are written without what they
carry. -/
def written (op : Op) : Op :=
  match op.opcode with
  | .output | .input => { op with operand := 0 }
  | _ => op

@[simp] theorem opcode_written (op : Op) : (written op).opcode = op.opcode := by
  obtain ⟨opcode, operand⟩ := op
  cases opcode <;> rfl

/-- The op that a statement was written for.  What a bracket holds is not in its statement. -/
def Statement.op : Statement → Op
  | .advance count => ⟨.shiftRight, .ofInt count⟩
  | .retreat count => ⟨.shiftLeft, .ofInt count⟩
  | .add value => ⟨.increment, .ofInt value⟩
  | .subtract value => ⟨.decrement, .ofInt value⟩
  | .store value => ⟨.assign, .ofInt value⟩
  | .put => ⟨.output, 0⟩
  | .get => ⟨.input, 0⟩
  | .openLoop => ⟨.loopStart, 0⟩
  | .closeLoop => ⟨.loopEnd, 0⟩

/-- The ops that a block was written for, the first of which has the given index. -/
def Block.ops (index : Nat) : Block → List Op
  | .done => []
  | .act statement next => statement.op :: next.ops (index + 1)
  | .loop body next =>
      let inner := body.ops (index + 1)
      let stop := index + 1 + inner.length
      ⟨.loopStart, Int32.ofNat stop⟩ :: (inner ++ ⟨.loopEnd, Int32.ofNat index⟩ :: next.ops (stop + 1))

/-- Read the ops back from the text of their program. -/
def readOps? (text : String) : Option (List Op) :=
  (MainFunction.ofText? text).map fun main => main.body.ops 0

theorem op_ofOp {op : Op} (plain : op.IsPlain) : (Statement.ofOp op).op = written op := by
  obtain ⟨opcode, operand⟩ := op
  cases opcode <;>
    simp_all [Op.IsPlain, Statement.ofOp, Statement.op, written, Int32.ofInt_toInt]

theorem ofOp_written (op : Op) : Statement.ofOp (written op) = Statement.ofOp op := by
  obtain ⟨opcode, operand⟩ := op
  cases opcode <;> rfl

theorem ops_ofTree {index : Nat} {ops : List Op} {tree : LoopTree} (nests : Nests index ops tree) :
    (Block.ofTree tree .done).ops index = tree.resolved.map written := by
  induction nests with
  | done => rfl
  | act plain _ ih =>
      rw [Block.ofTree, Block.ops, ih, op_ofOp plain]
      rfl
  | loop _ _ inside _ insideIH tailIH =>
      rw [Block.ofTree, Block.ops, insideIH, List.length_map, inside.length_resolved, tailIH,
        LoopTree.resolved, inside.length_resolved, List.map_cons, List.map_append, List.map_cons]
      rfl

variable {ops : List Op} {program other : Program}

theorem readOps?_emit (resolved : Program.resolve ops = .ok program) :
    readOps? (emit program) = some (program.ops.toList.map written) := by
  obtain ⟨tree, nests, _, same⟩ := Program.resolve_eq_ok_iff.mp resolved
  rw [readOps?, ofText?_emit nests same, Option.map_some, ops_ofTree nests, same]

theorem emit_of_written (same : program.ops.toList.map written = other.ops.toList.map written) :
    emit program = emit other := by
  have statements : program.ops.toList.map Statement.ofOp = other.ops.toList.map Statement.ofOp := by
    simpa only [List.map_map, Function.comp_def, ofOp_written] using
      congrArg (List.map Statement.ofOp) same
  rw [emit, emit, statements]

/-- Equal up to what input and output carry and ignore. -/
structure Alike (op other : Op) : Prop where
  opcode : other.opcode = op.opcode
  operand : op.opcode ≠ .output → op.opcode ≠ .input → other.operand = op.operand

theorem written_eq_iff {op other : Op} : written op = written other ↔ Alike op other := by
  constructor
  · intro same
    have kind : op.opcode = other.opcode := by simpa using congrArg Op.opcode same
    refine ⟨kind.symm, fun noOutput noInput => ?_⟩
    have whole (shown : Op) (alike : shown.opcode = op.opcode) : written shown = shown := by
      cases opcode : op.opcode <;> simp_all [written]
    rw [whole op rfl, whole other kind.symm] at same
    rw [same]
  · rintro ⟨kind, operands⟩
    obtain ⟨opcode, operand⟩ := op
    obtain ⟨otherOpcode, otherOperand⟩ := other
    cases kind
    cases opcode <;> simp_all [written]

theorem map_written_eq_iff {ops others : List Op} :
    ops.map written = others.map written ↔ List.Forall₂ Alike ops others := by
  have pointwise : Alike = fun op other => written op = written other := by
    funext op other
    rw [written_eq_iff]
  rw [pointwise, ← List.forall₂_eq_eq_eq, List.forall₂_map_left_iff, List.forall₂_map_right_iff]

end Reading

/-- The text of a resolved program is well nested and determines the program.  Its ops can be read
back, all but what input and output carry, and two programs with the same text differ in nothing
else. -/
theorem emit_determines {ops : List Op} {program : Program}
    (resolved : Program.resolve ops = .ok program) :
    (∃ body, Layout program body) ∧
    readOps? (emit program) = some (program.ops.toList.map written) ∧
    ∀ {others : List Op} {other : Program}, Program.resolve others = .ok other →
      (emit program = emit other ↔ List.Forall₂ Alike program.ops.toList other.ops.toList) := by
  refine ⟨⟨_, layout_of_resolve resolved⟩, readOps?_emit resolved, fun otherResolved => ?_⟩
  rw [← map_written_eq_iff]
  constructor
  · intro same
    have read := readOps?_emit otherResolved
    rw [← same, readOps?_emit resolved, Option.some.injEq] at read
    exact read
  · exact emit_of_written

/-- What an output carries is not in the text. -/
theorem emit_determines_silent_operand :
    ∃ program other,
      Program.resolve [⟨.loopStart, 0⟩, ⟨.output, 1⟩, ⟨.decrement, -3⟩, ⟨.loopEnd, 0⟩] = .ok program ∧
      Program.resolve [⟨.loopStart, 0⟩, ⟨.output, 7⟩, ⟨.decrement, -3⟩, ⟨.loopEnd, 0⟩] = .ok other ∧
      other ≠ program ∧ (∃ body, Layout program body) ∧
      readOps? (emit program) = some (program.ops.toList.map written) ∧
      emit program = emit other := by
  let program : Program := ⟨#[⟨.loopStart, 3⟩, ⟨.output, 1⟩, ⟨.decrement, -3⟩, ⟨.loopEnd, 0⟩]⟩
  let other : Program := ⟨#[⟨.loopStart, 3⟩, ⟨.output, 7⟩, ⟨.decrement, -3⟩, ⟨.loopEnd, 0⟩]⟩
  have resolved : Program.resolve
      [⟨.loopStart, 0⟩, ⟨.output, 1⟩, ⟨.decrement, -3⟩, ⟨.loopEnd, 0⟩] = .ok program := rfl
  have otherResolved : Program.resolve
      [⟨.loopStart, 0⟩, ⟨.output, 7⟩, ⟨.decrement, -3⟩, ⟨.loopEnd, 0⟩] = .ok other := rfl
  obtain ⟨layout, read, same⟩ := emit_determines resolved
  have silent : Alike ⟨.output, 1⟩ ⟨.output, 7⟩ := ⟨rfl, fun noOutput => absurd rfl noOutput⟩
  have alike : List.Forall₂ Alike program.ops.toList other.ops.toList :=
    .cons ⟨rfl, fun _ _ => rfl⟩ (.cons silent
      (.cons ⟨rfl, fun _ _ => rfl⟩ (.cons ⟨rfl, fun _ _ => rfl⟩ .nil)))
  exact ⟨program, other, resolved, otherResolved, by decide, layout, read,
    (same otherResolved).mpr alike⟩

end Tapewright.C
