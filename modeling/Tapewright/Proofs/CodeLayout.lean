import Tapewright.Proofs.Nesting
import Tapewright.X86.Code
import Tapewright.X86.Decode

namespace Tapewright.X86

/-! Where the code of each op is.

The size of a block does not depend on where its jumps go, so the place of every block is
known beforehand.  Once the loop ends have patched the exits, the code is the prologue, the
block of each op in order with the displacements between these places, and the epilogue.
-/

/-- The instructions of an op, when the block of each op starts at its place. -/
def blockOf (host : HostAddresses) (place : Nat → Nat) (index : Nat) (op : Op) : List Instruction :=
  match op.opcode with
  | .shiftRight => addPointer (op.operand.toInt64 * Assembly.cellBytes)
  | .shiftLeft => addPointer (-op.operand.toInt64 * Assembly.cellBytes)
  | .increment => addCell op.operand
  | .decrement => addCell (-op.operand)
  | .assign => storeCell op.operand
  | .output => callWithCell host.putCell
  | .input => callIntoCell host.getCell
  | .loopStart => [.cmpCellImm8 0, .jz (displacement (place index + 5) (place (op.target + 1)))]
  | .loopEnd => [.jmp (displacement (place index + 1) (place op.target))]

def blockSize (op : Op) : Nat :=
  (encodeAll (blockOf ⟨0, 0⟩ (fun _ => 0) 0 op)).length

theorem encodeAll_append (left right : List Instruction) :
    encodeAll (left ++ right) = encodeAll left ++ encodeAll right :=
  List.flatMap_append

theorem length_blockOf (host : HostAddresses) (place : Nat → Nat) (index : Nat) (op : Op) :
    (encodeAll (blockOf host place index op)).length = blockSize op := by
  obtain ⟨opcode, operand⟩ := op
  cases opcode <;>
    simp only [blockSize, blockOf, callWithCell, callIntoCell, encodeAll, List.flatMap_cons,
      List.flatMap_nil, List.length_append, Instruction.encode, bytes32_length, bytes64_length]

def place (program : Program) : Nat → Nat
  | 0 => (encodeAll prologue).length
  | index + 1 => place program index + ((program.ops[index]?).map blockSize).getD 0

theorem place_succ {program : Program} {index : Nat} {op : Op}
    (found : program.ops[index]? = some op) :
    place program (index + 1) = place program index + blockSize op := by
  rw [place, found]
  rfl

theorem place_of_none {program : Program} {index : Nat} (none_ : program.ops[index]? = none) :
    place program index = place program program.size := by
  have beyond : program.size ≤ index := Array.getElem?_eq_none_iff.mp none_
  clear none_
  induction beyond with
  | refl => rfl
  | @step index beyond ih =>
      rw [place, Array.getElem?_eq_none_iff.mpr beyond, ih]
      rfl

theorem place_le (program : Program) (index : Nat) :
    place program index ≤ place program program.size := by
  have grows (first more : Nat) : place program first ≤ place program (first + more) := by
    induction more with
    | zero => exact Nat.le_refl _
    | succ more ih => exact Nat.le_trans ih (Nat.le_add_right ..)
  rcases Nat.le_total index program.size with within | beyond
  · obtain ⟨more, same⟩ := Nat.exists_eq_add_of_le within
    rw [same]
    exact grows index more
  · exact Nat.le_of_eq (place_of_none (Array.getElem?_eq_none_iff.mpr beyond))

/-- The blocks of the ops from one index up to another. -/
inductive Spans (host : HostAddresses) (program : Program) : Nat → Nat → List Instruction → Prop where
  | nil {index : Nat} : Spans host program index index []
  | cons {index stop : Nat} {op : Op} {rest : List Instruction}
      (found : program.ops[index]? = some op) (tail : Spans host program (index + 1) stop rest) :
      Spans host program index stop (blockOf host (place program) index op ++ rest)

namespace Spans

variable {host : HostAddresses} {program : Program} {index middle stop : Nat}
  {left right out : List Instruction}

theorem append (first : Spans host program index middle left)
    (second : Spans host program middle stop right) :
    Spans host program index stop (left ++ right) := by
  induction first with
  | nil => exact second
  | cons found _ ih =>
      rw [List.append_assoc]
      exact .cons found (ih second)

theorem size (spans : Spans host program index stop out) :
    place program index + (encodeAll out).length = place program stop := by
  induction spans with
  | nil => rfl
  | cons found _ ih =>
      rw [encodeAll_append, List.length_append, length_blockOf, ← ih, place_succ found]
      omega

theorem block_at (spans : Spans host program index stop out) {here : Nat} {op : Op}
    (after : index ≤ here) (before : here < stop) (found : program.ops[here]? = some op) :
    ∃ front back, out = front ++ blockOf host (place program) here op ++ back ∧
      place program index + (encodeAll front).length = place program here := by
  induction spans with
  | nil => omega
  | @cons index stop first rest firstFound _ ih =>
      by_cases same : here = index
      · subst same
        rw [firstFound] at found
        cases found
        exact ⟨[], rest, by simp, rfl⟩
      · obtain ⟨front, back, rfl, position⟩ := ih (by omega) before
        refine ⟨blockOf host (place program) index first ++ front, back, by simp, ?_⟩
        rw [encodeAll_append, List.length_append, length_blockOf, ← position, place_succ firstFound]
        omega

end Spans

namespace Assembler

@[simp] theorem toList_emit (assembler : Assembler) (instructions : List Instruction) :
    (assembler.emit instructions).code.toList = assembler.code.toList ++ encodeAll instructions := by
  simp [emit]

theorem ext_toList {left right : Assembler} (same : left.code.toList = right.code.toList) :
    left = right := by
  obtain ⟨⟨bytes⟩⟩ := left
  obtain ⟨⟨others⟩⟩ := right
  cases same
  rfl

@[simp] theorem size_emit (assembler : Assembler) (instructions : List Instruction) :
    (assembler.emit instructions).size = assembler.size + (encodeAll instructions).length := by
  rw [size, ← Array.length_toList, toList_emit, List.length_append, Array.length_toList, size]

@[simp] theorem emit_emit (assembler : Assembler) (first second : List Instruction) :
    (assembler.emit first).emit second = assembler.emit (first ++ second) := by
  apply ext_toList
  simp [encodeAll_append]

@[simp] theorem emit_nil (assembler : Assembler) : assembler.emit [] = assembler := by
  apply ext_toList
  simp [encodeAll]

theorem overwrite_between {code : Array UInt8} {position : Nat} {bytes before old after : List UInt8}
    (whole : code.toList = before ++ old ++ after) (here : before.length = position)
    (same : old.length = bytes.length) :
    (overwrite code position bytes).toList = before ++ bytes ++ after := by
  induction bytes generalizing code position before old with
  | nil =>
      rw [List.length_nil, List.length_eq_zero_iff] at same
      rw [overwrite, whole, same]
  | cons byte rest ih =>
      cases old with
      | nil => cases same
      | cons oldByte oldRest =>
          have step : (code.setIfInBounds position byte).toList =
              (before ++ [byte]) ++ oldRest ++ after := by
            simp [whole, ← here]
          have replaced := @ih _ (position + 1) _ _ step (by simp [here]) (by simpa using same)
          simpa [overwrite] using replaced

/-- Patching the field of a jump on zero points the jump somewhere else and changes nothing
besides. -/
theorem patch_jump (assembler : Assembler) (old : Int32) (body : List Instruction) (target : Nat) :
    (assembler.emit ([.cmpCellImm8 0, .jz old] ++ body)).patch (assembler.size + 5) target =
      assembler.emit ([.cmpCellImm8 0, .jz (displacement (assembler.size + 5) target)] ++ body) := by
  have bytes (rel32 : Int32) : encodeAll ([.cmpCellImm8 0, .jz rel32] ++ body) =
      [0x83, 0x3b, 0x00, 0x0f, 0x84] ++ bytes32 rel32.toUInt32 ++ encodeAll body := rfl
  have room : (assembler.emit ([.cmpCellImm8 0, .jz old] ++ body)).hasField (assembler.size + 5) = true := by
    simp only [hasField, size_emit, bytes, List.length_append, bytes32_length, List.length_cons,
      List.length_nil, decide_eq_true_eq]
    omega
  have whole : (assembler.emit ([.cmpCellImm8 0, .jz old] ++ body)).code.toList =
      (assembler.code.toList ++ [0x83, 0x3b, 0x00, 0x0f, 0x84]) ++ bytes32 old.toUInt32 ++
        encodeAll body := by
    rw [toList_emit, bytes, ← List.append_assoc, ← List.append_assoc]
  apply ext_toList
  rw [patch, if_pos room, toList_emit, bytes, ← List.append_assoc, ← List.append_assoc]
  exact overwrite_between whole (by simp [size]) rfl

/-- Closing a loop turns the open exit in front of its body into a jump behind the loop. -/
theorem patch_exit (assembler : Assembler) (body : List Instruction) (target : Nat) :
    (assembler.emit (jumpIfZero ++ body)).patch (assembler.size + 5) target =
      assembler.emit ([.cmpCellImm8 0, .jz (displacement (assembler.size + 5) target)] ++ body) :=
  patch_jump assembler 0 body target

end Assembler

namespace Assembly

variable {host : HostAddresses} {program : Program} {index : Nat} {op : Op}

theorem blocks_drop (found : program.ops[index]? = some op) (assembly : Assembly) :
    assembly.blocks host index (program.ops.toList.drop index) =
      (assembly.block host index op).blocks host (index + 1) (program.ops.toList.drop (index + 1)) := by
  obtain ⟨inside, rfl⟩ := Array.getElem?_eq_some_iff.mp found
  have inList : index < program.ops.toList.length := inside
  rw [List.drop_eq_getElem_cons inList, Array.getElem_toList, blocks]

theorem block_plain (plain : op.IsPlain) (assembler : Assembler) (pending : List (Nat × LoopHead))
    (place : Nat → Nat) :
    block host ⟨assembler, pending⟩ index op = ⟨assembler.emit (blockOf host place index op), pending⟩ := by
  obtain ⟨opcode, operand⟩ := op
  cases opcode with
  | loopStart | loopEnd => simp [Op.IsPlain] at plain
  | _ => rfl

theorem block_loopStart (start : op.opcode = .loopStart) (assembler : Assembler)
    (pending : List (Nat × LoopHead)) :
    block host ⟨assembler, pending⟩ index op =
      ⟨assembler.emit jumpIfZero, (op.target, ⟨assembler.size, assembler.size + 5⟩) :: pending⟩ := by
  simp only [block, start, openLoop, Assembler.emitJumpIfZero, Assembler.size_emit]
  rfl

theorem block_loopEnd (ends : op.opcode = .loopEnd) (assembler : Assembler) (head : LoopHead)
    (pending : List (Nat × LoopHead)) :
    block host ⟨assembler, (index, head) :: pending⟩ index op =
      ⟨(assembler.emitJumpBack head.start).patch head.exitField
        (assembler.emitJumpBack head.start).size, pending⟩ := by
  simp [block, ends, closeLoop]

/-- Assembling a tree where it stands appends the blocks of its ops. -/
theorem blocks_placed {tree : LoopTree} {stop : Nat} (placed : tree.Placed program index stop)
    (assembler : Assembler) (pending : List (Nat × LoopHead))
    (size : assembler.size = place program index) :
    ∃ out, Spans host program index stop out ∧
      blocks host ⟨assembler, pending⟩ index (program.ops.toList.drop index) =
        blocks host ⟨assembler.emit out, pending⟩ stop (program.ops.toList.drop stop) := by
  induction placed generalizing assembler pending with
  | done => exact ⟨[], .nil, by simp⟩
  | @act index stop op next found plain _ ih =>
      have larger : (assembler.emit (blockOf host (place program) index op)).size =
          place program (index + 1) := by
        rw [Assembler.size_emit, length_blockOf, size, place_succ found]
      obtain ⟨out, spans, rest⟩ := ih _ pending larger
      refine ⟨_, .cons found spans, ?_⟩
      rw [blocks_drop found, block_plain plain assembler pending (place program), rest,
        Assembler.emit_emit]
  | @loop index close stop first last body next head start forward _ foot ends back _ insideIH tailIH =>
      have startBlock :
          [.cmpCellImm8 0, .jz (displacement (assembler.size + 5) (place program (close + 1)))] =
            blockOf host (place program) index first := by
        simp only [blockOf, start, forward, size]
      have endBlock : jumpBack (place program close) assembler.size =
          blockOf host (place program) close last := by
        simp only [blockOf, ends, back, size, jumpBack]
      have opened : (assembler.emit jumpIfZero).size = place program (index + 1) := by
        rw [place_succ head, Assembler.size_emit, size, blockSize, blockOf, start]
        rfl
      obtain ⟨bodyOut, bodySpans, bodyRest⟩ :=
        insideIH _ ((close, ⟨assembler.size, assembler.size + 5⟩) :: pending) opened
      have closed : ((assembler.emit jumpIfZero).emit bodyOut).size = place program close := by
        rw [Assembler.size_emit, opened, bodySpans.size]
      have looped : Spans host program index (close + 1)
          (blockOf host (place program) index first ++
            (bodyOut ++ blockOf host (place program) close last)) := by
        have foot_ := Spans.cons foot (.nil : Spans host program (close + 1) (close + 1) [])
        rw [List.append_nil] at foot_
        exact .cons head (bodySpans.append foot_)
      have after : (assembler.emit (jumpIfZero ++ (bodyOut ++
          blockOf host (place program) close last))).size = place program (close + 1) := by
        rw [← Assembler.emit_emit, ← Assembler.emit_emit, Assembler.size_emit, closed,
          length_blockOf, place_succ foot]
      have ended : block host ⟨(assembler.emit jumpIfZero).emit bodyOut,
          (close, ⟨assembler.size, assembler.size + 5⟩) :: pending⟩ close last =
          ⟨assembler.emit (blockOf host (place program) index first ++
            (bodyOut ++ blockOf host (place program) close last)), pending⟩ := by
        rw [block_loopEnd ends, Assembler.emitJumpBack, closed, endBlock, Assembler.emit_emit,
          Assembler.emit_emit, Assembler.patch_exit, after, startBlock]
      obtain ⟨out, spans, rest⟩ := tailIH (assembler.emit (blockOf host (place program) index first ++
        (bodyOut ++ blockOf host (place program) close last))) pending
        (by rw [Assembler.size_emit, size, looped.size])
      refine ⟨_, looped.append spans, ?_⟩
      rw [blocks_drop head, block_loopStart start, forward, bodyRest, blocks_drop foot, ended, rest,
        Assembler.emit_emit]

end Assembly

/-- The code of a resolved program: its prologue, the blocks of its ops, and its epilogue. -/
theorem assemble_code (host : HostAddresses) {tree : LoopTree} {program : Program}
    (placed : tree.Placed program 0 program.size) :
    ∃ out, Spans host program 0 program.size out ∧
      (assemble host program).code.toList = encodeAll (prologue ++ out ++ epilogue) := by
  obtain ⟨out, spans, rest⟩ := Assembly.blocks_placed placed (Assembler.empty.emit prologue) []
    rfl
  have nothing : program.ops.toList.drop program.size = [] := by
    simp [Program.size]
  refine ⟨out, spans, ?_⟩
  rw [List.drop_zero, nothing] at rest
  rw [assemble, Assembly.start, rest, Assembly.blocks, Assembler.emit_emit, Assembler.emit_emit,
    Assembler.toList_emit]
  rfl

def CodeAt (code : List UInt8) (position : Nat) (instructions : List Instruction) : Prop :=
  ∃ front back, code = front ++ encodeAll instructions ++ back ∧ front.length = position

namespace CodeAt

variable {code : List UInt8} {position : Nat} {instruction : Instruction}
  {instructions rest : List Instruction}

theorem fetch (loaded : CodeAt code position (instruction :: rest)) :
    ∃ tail, decode? (code.drop position) = some (instruction, tail) ∧
      code.length - tail.length = position + instruction.size := by
  obtain ⟨front, back, rfl, rfl⟩ := loaded
  refine ⟨encodeAll rest ++ back, ?_, ?_⟩
  · have onward : (front ++ encodeAll (instruction :: rest) ++ back).drop front.length =
        instruction.encode ++ (encodeAll rest ++ back) := by
      simp [encodeAll]
    rw [onward, decode?_encode_append]
  · simp only [encodeAll, List.flatMap_cons, List.length_append, Instruction.size]
    omega

theorem tail (loaded : CodeAt code position (instruction :: rest)) :
    CodeAt code (position + instruction.size) rest := by
  obtain ⟨front, back, rfl, rfl⟩ := loaded
  exact ⟨front ++ instruction.encode, back, by simp [encodeAll], by simp [Instruction.size]⟩

end CodeAt

/-- What the code of a resolved program holds, and where. -/
structure Laid (host : HostAddresses) (program : Program) (code : List UInt8) : Prop where
  enters : CodeAt code 0 prologue
  blocks : ∀ {index op}, program.ops[index]? = some op →
    CodeAt code (place program index) (blockOf host (place program) index op)
  leaves : CodeAt code (place program program.size) epilogue
  length : code.length = place program program.size + (encodeAll epilogue).length

theorem laid_assemble (host : HostAddresses) {tree : LoopTree} {program : Program}
    (placed : tree.Placed program 0 program.size) :
    Laid host program (assemble host program).code.toList := by
  obtain ⟨out, spans, whole⟩ := assemble_code host placed
  have size : (encodeAll prologue).length + (encodeAll out).length = place program program.size :=
    spans.size
  rw [whole]
  constructor
  · exact ⟨[], encodeAll (out ++ epilogue), by simp [encodeAll_append], rfl⟩
  · intro index op found
    have inside : index < program.size := (Array.getElem?_eq_some_iff.mp found).1
    obtain ⟨front, back, rfl, position⟩ := spans.block_at (Nat.zero_le index) inside found
    refine ⟨encodeAll (prologue ++ front), encodeAll (back ++ epilogue), by simp [encodeAll_append], ?_⟩
    rw [encodeAll_append, List.length_append]
    exact position
  · refine ⟨encodeAll (prologue ++ out), [], by simp [encodeAll_append], ?_⟩
    rw [encodeAll_append, List.length_append, size]
  · rw [encodeAll_append, encodeAll_append, List.length_append, List.length_append, size]

end Tapewright.X86
