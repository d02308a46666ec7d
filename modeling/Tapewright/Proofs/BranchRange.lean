import Mathlib.Algebra.GroupWithZero.Nat
import Tapewright.Proofs.Backpatching
import Tapewright.Proofs.MachineRun

namespace Tapewright.X86

open Program

/-! How far jumps can lead.

A loop has two jumps, the exit in front of its body and the jump back at its end.  Each spans
the loop, and its displacement is cut to 32 bits when it is written, without a look at what is
lost.  A jump arrives where it should exactly when its offset fits, and both jumps of a loop do
when the loop takes up no more than 2^31 bytes.  Resolution counts ops and not bytes, and it
accepts programs with longer loops.
-/

/-- A jump to a target, by a displacement that stands in a field. -/
structure Branch where
  field : Nat
  target : Nat
deriving DecidableEq, Repr

namespace Branch

/-- How far the target is from the end of the field, which is the end of the jump. -/
def offset (branch : Branch) : Int :=
  branch.target - (branch.field + 4 : Nat)

/-- The offset fits a signed 32-bit number. -/
def InRange (branch : Branch) : Prop :=
  -0x80000000 ≤ branch.offset ∧ branch.offset < 0x80000000

instance : DecidablePred InRange :=
  fun _ => inferInstanceAs (Decidable (_ ∧ _))

variable {branch : Branch}

/-- Cutting an offset to 32 bits keeps its value if and only if it fits. -/
theorem toInt_displacement_iff :
    (displacement branch.field branch.target).toInt = branch.offset ↔ branch.InRange := by
  constructor
  · intro same
    rw [InRange, ← same]
    exact ⟨Int32.le_toInt _, Int32.toInt_lt _⟩
  · rintro ⟨lower, upper⟩
    exact Int32.toInt_ofInt_of_le lower upper

/-- A machine that takes the jump arrives at the target if and only if the offset fits. -/
theorem jump_iff {machine : Machine} (behind : machine.position = branch.field + 4) :
    machine.jump (displacement branch.field branch.target) =
      .running { machine with position := branch.target } ↔ branch.InRange := by
  rw [← toInt_displacement_iff, offset, Machine.jump, behind]
  constructor
  · intro taken
    split at taken
    · have arrived := congrArg Machine.position (Progress.running.inj taken)
      simp only at arrived
      omega
    · cases taken
  · intro same
    have sum : ((branch.field + 4 : Nat) : Int) +
        (displacement branch.field branch.target).toInt = branch.target := by
      omega
    simp only [sum, Int.natCast_nonneg, ↓reduceIte, Int.toNat_natCast]

end Branch

section Patches

/-- The jump back is an empty jump whose field is patched. -/
theorem Assembler.patch_emptyJump (assembler : Assembler) (target : Nat) :
    (assembler.emit [.jmp 0]).patch (assembler.size + 1) target = assembler.emitJumpBack target := by
  have bytes (rel32 : Int32) : encodeAll [.jmp rel32] = [0xe9] ++ bytes32 rel32.toUInt32 := by
    simp [encodeAll, Instruction.encode]
  have room : (assembler.emit [.jmp 0]).hasField (assembler.size + 1) = true := by
    simp [hasField, bytes, bytes32_length]
  have whole : (assembler.emit [.jmp 0]).code.toList =
      (assembler.code.toList ++ [0xe9]) ++ bytes32 (0 : Int32).toUInt32 ++ [] := by
    rw [toList_emit, bytes, List.append_nil, List.append_assoc]
  apply ext_toList
  rw [patch, if_pos room, emitJumpBack, jumpBack, toList_emit, bytes, ← List.append_assoc]
  refine (overwrite_between whole (by simp [size]) ?_).trans (List.append_nil _)
  rw [bytes32_length, bytes32_length]

/-- The branches that get their displacements when the loop that is to be closed at an index
ends, in order: the jump back to the test, and the exit. -/
def Assembly.closing (assembly : Assembly) (index : Nat) : List Branch :=
  match assembly.pending.lookup index with
  | none => []
  | some head =>
      [⟨assembly.assembler.size + 1, head.start⟩,
        ⟨head.exitField, (assembly.assembler.emitJumpBack head.start).size⟩]

/-- All that the end of a loop does to the code is to append an empty jump and to patch. -/
theorem Assembly.closeLoop_patches (assembly : Assembly) (index : Nat) {head : LoopHead}
    (found : assembly.pending.lookup index = some head) :
    (assembly.closeLoop index).assembler =
      (assembly.closing index).foldl (fun assembler branch => assembler.patch branch.field branch.target)
        (assembly.assembler.emit [.jmp 0]) := by
  obtain ⟨assembler, pending⟩ := assembly
  rw [closeLoop_of_lookup found, closing, found]
  simp only [List.foldl_cons, List.foldl_nil, Assembler.patch_emptyJump]

/-- Every branch of a program, in the order in which their displacements are written. -/
def branches (host : HostAddresses) (program : Program) : List Branch :=
  program.ops.toList.zipIdx.flatMap fun entry =>
    if entry.1.opcode = .loopEnd then (Assembly.upTo host program entry.2).closing entry.2 else []

theorem mem_branches {host : HostAddresses} {program : Program} {branch : Branch} :
    branch ∈ branches host program ↔ ∃ index op, program.ops[index]? = some op ∧
      op.opcode = .loopEnd ∧ branch ∈ (Assembly.upTo host program index).closing index := by
  simp only [branches, List.mem_flatMap, Prod.exists, List.mem_zipIdx_iff_getElem?,
    Array.getElem?_toList, List.mem_ite_nil_right]
  exact exists_comm

end Patches

section Sizes

variable {program : Program} {op : Op} {start stop : Nat}

theorem blockSize_loopStart (starts_ : op.opcode = .loopStart) : blockSize op = 9 := by
  rw [blockSize, blockOf, starts_]
  rfl

theorem blockSize_loopEnd (ends_ : op.opcode = .loopEnd) : blockSize op = 5 := by
  rw [blockSize, blockOf, ends_]
  rfl

/-- What a bracket holds does not change the size of its block. -/
theorem blockSize_bare (op : Op) : blockSize op.bare = blockSize op := by
  by_cases starts_ : op.opcode = .loopStart
  · rw [blockSize_loopStart starts_, blockSize_loopStart (op.opcode_bare.trans starts_)]
  by_cases ends_ : op.opcode = .loopEnd
  · rw [blockSize_loopEnd ends_, blockSize_loopEnd (op.opcode_bare.trans ends_)]
  · rw [Op.bare_of_plain ⟨starts_, ends_⟩]

theorem length_addPointer_le (bytes : Int64) : (encodeAll (addPointer bytes)).length ≤ 13 := by
  rw [addPointer]
  split
  · simp [encodeAll, Instruction.encode]
  split <;> simp [encodeAll, Instruction.encode, bytes32_length, bytes64_length]

theorem length_addCell_le (value : Int32) : (encodeAll (addCell value)).length ≤ 6 := by
  rw [addCell]
  split <;> simp [encodeAll, Instruction.encode, bytes32_length]

/-- The calls of the host functions are the largest blocks. -/
theorem blockSize_le (op : Op) : blockSize op ≤ 17 := by
  obtain ⟨opcode, operand⟩ := op
  cases opcode with
  | shiftRight => exact Nat.le_trans (length_addPointer_le _) (by decide)
  | shiftLeft => exact Nat.le_trans (length_addPointer_le _) (by decide)
  | increment => exact Nat.le_trans (length_addCell_le _) (by decide)
  | decrement => exact Nat.le_trans (length_addCell_le _) (by decide)
  | _ => simp [blockSize, blockOf, storeCell, callWithCell, callIntoCell, encodeAll,
      Instruction.encode, bytes32_length, bytes64_length]

/-- Places grow with the index, by no more than the largest block for each op. -/
theorem place_between (program : Program) (index more : Nat) :
    place program index ≤ place program (index + more) ∧
      place program (index + more) ≤ place program index + 17 * more := by
  induction more with
  | zero => exact ⟨Nat.le_refl _, Nat.le_refl _⟩
  | succ more ih =>
      rw [← Nat.add_assoc, place]
      cases program.ops[index + more]? with
      | none => exact ⟨by simpa using ih.1, by simp; omega⟩
      | some op =>
          have size := blockSize_le op
          simp only [Option.map_some, Option.getD_some]
          omega

theorem place_eq_sum (program : Program) (index : Nat) :
    place program index = 13 + ((program.ops.toList.take index).map blockSize).sum := by
  induction index with
  | zero => rfl
  | succ index ih =>
      rw [place, ih, List.take_add_one, List.map_append, List.sum_append, Nat.add_assoc,
        Array.getElem?_toList]
      cases program.ops[index]? <;> simp

/-- Places can be told from the ops before they are resolved. -/
theorem place_of_resolve {source : List Op} (resolved : resolve source = .ok program) (index : Nat) :
    place program index = 13 + ((source.take index).map blockSize).sum := by
  have bare (ops : List Op) : ops.map blockSize = (ops.map Op.bare).map blockSize := by
    simp [blockSize_bare]
  rw [place_eq_sum, bare, bare (source.take index)]
  simp only [List.map_take, (pairing_of_resolve resolved).same]

theorem stop_lt_of_loop (loop : program.LoopAt start stop) : stop < program.size := by
  obtain ⟨last, foot, -⟩ := loop.foot
  exact (Array.getElem?_eq_some_iff.mp foot).1

/-- The test of a loop takes nine bytes, and its jump back five. -/
theorem places_of_loop (loop : program.LoopAt start stop) :
    place program (start + 1) = place program start + 9 ∧
      place program (stop + 1) = place program stop + 5 ∧
      place program (start + 1) ≤ place program stop := by
  obtain ⟨first, head, starts_, -⟩ := loop.head
  obtain ⟨last, foot, ends_, -⟩ := loop.foot
  obtain ⟨between, rfl⟩ := Nat.exists_eq_add_of_le (Nat.succ_le_of_lt loop.lt)
  refine ⟨?_, ?_, (place_between program (start + 1) between).1⟩
  · rw [place_succ head, blockSize_loopStart starts_]
  · rw [place_succ foot, blockSize_loopEnd ends_]

/-- Even a loop of nothing but calls is short if it has few ops. -/
theorem loop_le_of_size (loop : program.LoopAt start stop) (small : program.size ≤ 126322568) :
    place program (stop + 1) ≤ place program start + 0x80000000 := by
  obtain ⟨test, back, -⟩ := places_of_loop loop
  have inside := stop_lt_of_loop loop
  obtain ⟨between, rfl⟩ := Nat.exists_eq_add_of_le (Nat.succ_le_of_lt loop.lt)
  have body := (place_between program (start + 1) between).2
  simp only [Nat.succ_eq_add_one] at back inside ⊢
  -- The brackets are two of the ops, and 9 + 17 * 126322566 + 5 is just below 2^31.
  omega

end Sizes

section Loops

variable {host : HostAddresses} {program : Program} {tree : LoopTree} {start stop : Nat}

def backBranch (program : Program) (start stop : Nat) : Branch :=
  ⟨place program stop + 1, place program start⟩

def exitBranch (program : Program) (start stop : Nat) : Branch :=
  ⟨place program start + 5, place program (stop + 1)⟩

theorem closing_of_loop (host : HostAddresses) (placed : tree.Placed program 0 program.size)
    (loop : program.LoopAt start stop) :
    (Assembly.upTo host program stop).closing stop =
      [backBranch program start stop, exitBranch program start stop] := by
  have done := Done.upTo host placed (Nat.le_of_lt (stop_lt_of_loop loop))
  have jump (here target : Nat) : (encodeAll (jumpBack here target)).length = 5 := rfl
  have waits := done.lookup loop loop.lt (Nat.le_refl _)
  rw [Assembly.closing, waits]
  simp only [Assembler.emitJumpBack, Assembler.size_emit, jump, done.size, headAt, backBranch, exitBranch,
    (places_of_loop loop).2.1]

/-- The end of a loop appends an empty jump, and then both branches of the loop are patched. -/
theorem upTo_of_loop (host : HostAddresses) (placed : tree.Placed program 0 program.size)
    (loop : program.LoopAt start stop) :
    (Assembly.upTo host program (stop + 1)).assembler =
      [backBranch program start stop, exitBranch program start stop].foldl
        (fun assembler branch => assembler.patch branch.field branch.target)
        ((Assembly.upTo host program stop).assembler.emit [.jmp 0]) := by
  obtain ⟨last, foot, ends_, -⟩ := loop.foot
  have done := Done.upTo host placed (Nat.le_of_lt (stop_lt_of_loop loop))
  have waits := done.lookup loop loop.lt (Nat.le_refl _)
  simp only [Assembly.upTo_succ foot, Assembly.block, ends_]
  rw [Assembly.closeLoop_patches _ _ waits, closing_of_loop host placed loop]

/-- The branches of a program are those of its loops. -/
theorem mem_branches_iff (placed : tree.Placed program 0 program.size) {branch : Branch} :
    branch ∈ branches host program ↔ ∃ start stop, program.LoopAt start stop ∧
      (branch = backBranch program start stop ∨ branch = exitBranch program start stop) := by
  rw [mem_branches]
  constructor
  · rintro ⟨stop, op, found, ends_, member⟩
    obtain ⟨start, loop⟩ := placed.loopAt_of_end (Nat.zero_le _)
      (Array.getElem?_eq_some_iff.mp found).1 found ends_
    rw [closing_of_loop host placed loop] at member
    exact ⟨start, stop, loop, by simpa using member⟩
  · rintro ⟨start, stop, loop, either⟩
    obtain ⟨last, foot, ends_, -⟩ := loop.foot
    refine ⟨stop, last, foot, ends_, ?_⟩
    rw [closing_of_loop host placed loop]
    simpa using either

theorem backBranch_inRange (loop : program.LoopAt start stop) :
    (backBranch program start stop).InRange ↔
      place program (stop + 1) ≤ place program start + 0x80000000 := by
  obtain ⟨test, back, body⟩ := places_of_loop loop
  simp only [Branch.InRange, Branch.offset, backBranch]
  omega

/-- The exit counts from behind the test, and so it reaches a little further than the jump back. -/
theorem exitBranch_inRange (loop : program.LoopAt start stop) :
    (exitBranch program start stop).InRange ↔
      place program (stop + 1) < place program start + 9 + 0x80000000 := by
  obtain ⟨test, back, body⟩ := places_of_loop loop
  simp only [Branch.InRange, Branch.offset, exitBranch]
  omega

section Steps

variable (host) (side : HostSide) (context : UInt64) {machine : Machine}
  (placed : tree.Placed program 0 program.size) (loop : program.LoopAt start stop)
include placed loop

theorem back_step (here : machine.position = place program stop) :
    machine.step (assemble host program).code.toList side context =
      { machine with position := place program stop + 5 }.jump
        (displacement (place program stop + 1) (place program start)) := by
  obtain ⟨last, foot, ends_, back⟩ := loop.foot
  have loaded := (laid_assemble host placed).blocks foot
  simp only [blockOf, ends_, back] at loaded
  exact Machine.step_of_codeAt loaded here rfl

theorem exit_step (here : machine.position = place program start + 3) (zero : machine.zeroFlag = true) :
    machine.step (assemble host program).code.toList side context =
      { machine with position := place program start + 9 }.jump
        (displacement (place program start + 5) (place program (stop + 1))) := by
  obtain ⟨first, head, starts_, forward⟩ := loop.head
  have loaded := (laid_assemble host placed).blocks head
  simp only [blockOf, starts_, forward] at loaded
  exact Machine.step_of_codeAt loaded.tail here (if_pos zero)

end Steps

/-- How far the branches of a program lead. -/
structure Reach (host : HostAddresses) (program : Program) : Prop where
  /-- All offsets fit if and only if no loop takes up more than 2^31 bytes. -/
  range : (∀ branch ∈ branches host program, branch.InRange) ↔
    ∀ start stop, program.LoopAt start stop →
      place program (stop + 1) ≤ place program start + 0x80000000
  /-- They do in a program of few ops. -/
  small : program.size ≤ 126322568 → ∀ branch ∈ branches host program, branch.InRange
  /-- What is written of an offset is the offset if and only if it fits. -/
  kept : ∀ branch ∈ branches host program,
    (displacement branch.field branch.target).toInt = branch.offset ↔ branch.InRange
  /-- The branches are the jump back and the exit of each loop. -/
  loops : ∀ branch, branch ∈ branches host program ↔ ∃ start stop, program.LoopAt start stop ∧
    (branch = backBranch program start stop ∨ branch = exitBranch program start stop)
  /-- They are what is patched when a loop ends, and nothing else is. -/
  patched : ∀ {start stop}, program.LoopAt start stop →
    (Assembly.upTo host program (stop + 1)).assembler =
      [backBranch program start stop, exitBranch program start stop].foldl
        (fun assembler branch => assembler.patch branch.field branch.target)
        ((Assembly.upTo host program stop).assembler.emit [.jmp 0])
  /-- At the end of a loop the machine goes back to the test if and only if the offset fits. -/
  back : ∀ {start stop}, program.LoopAt start stop → ∀ side context (machine : Machine),
    machine.position = place program stop →
    (machine.step (assemble host program).code.toList side context =
      .running { machine with position := place program start } ↔
        (backBranch program start stop).InRange)
  /-- On a zero cell the machine goes behind the loop if and only if the offset fits. -/
  exit : ∀ {start stop}, program.LoopAt start stop → ∀ side context (machine : Machine),
    machine.position = place program start + 3 → machine.zeroFlag = true →
    (machine.step (assemble host program).code.toList side context =
      .running { machine with position := place program (stop + 1) } ↔
        (exitBranch program start stop).InRange)

theorem inRange_iff (placed : tree.Placed program 0 program.size) :
    (∀ branch ∈ branches host program, branch.InRange) ↔
      ∀ start stop, program.LoopAt start stop →
        place program (stop + 1) ≤ place program start + 0x80000000 := by
  constructor
  · intro fit start stop loop
    exact (backBranch_inRange loop).mp (fit _ ((mem_branches_iff placed).mpr ⟨start, stop, loop, .inl rfl⟩))
  · intro short branch member
    -- Of the two branches of a loop the jump back is the one that fails first.
    obtain ⟨start, stop, loop, rfl | rfl⟩ := (mem_branches_iff placed).mp member
    · exact (backBranch_inRange loop).mpr (short start stop loop)
    · have spans := short start stop loop
      exact (exitBranch_inRange loop).mpr (by omega)

/-- When the jumps of a resolved program arrive.  An offset is cut to 32 bits without a check, so
a jump arrives at its target if and only if its offset fits, and all of them do if and only if no
loop takes up more than 2^31 bytes. -/
theorem assemble_reaches_iff (host : HostAddresses) {source : List Op}
    (resolved : resolve source = .ok program) : Reach host program := by
  obtain ⟨tree, -, -, placed⟩ := placed_of_resolve resolved
  constructor
  case range => exact inRange_iff placed
  case small =>
    intro few
    exact (inRange_iff placed).mpr fun start stop loop => loop_le_of_size loop few
  case kept => exact fun branch _ => branch.toInt_displacement_iff
  case loops => exact fun branch => mem_branches_iff placed
  case patched => exact fun loop => upTo_of_loop host placed loop
  case back =>
    intro start stop loop side context machine here
    rw [back_step host side context placed loop here]
    exact @Branch.jump_iff (backBranch program start stop) ⟨place program stop + 5, _, _, _, _⟩ rfl
  case exit =>
    intro start stop loop side context machine here zero
    rw [exit_step host side context placed loop here zero]
    exact @Branch.jump_iff (exitBranch program start stop) ⟨place program start + 9, _, _, _, _⟩ rfl

/-- The two jumps of `[.]` pass over 22 and 31 bytes. -/
theorem assemble_reaches_iff_output :
    resolve (Source.ops "[.]") = .ok ⟨#[⟨.loopStart, 2⟩, ⟨.output, 1⟩, ⟨.loopEnd, 0⟩]⟩ ∧
      branches ⟨1, 2⟩ ⟨#[⟨.loopStart, 2⟩, ⟨.output, 1⟩, ⟨.loopEnd, 0⟩]⟩ = [⟨40, 13⟩, ⟨18, 44⟩] ∧
      ∀ branch ∈ branches ⟨1, 2⟩ ⟨#[⟨.loopStart, 2⟩, ⟨.output, 1⟩, ⟨.loopEnd, 0⟩]⟩, branch.InRange := by
  have resolved : resolve (Source.ops "[.]") =
    .ok ⟨#[⟨.loopStart, 2⟩, ⟨.output, 1⟩, ⟨.loopEnd, 0⟩]⟩ := rfl
  exact ⟨resolved, by decide, (assemble_reaches_iff ⟨1, 2⟩ resolved).small (by decide)⟩

end Loops

section TooFar

/-- A loop around so many outputs. -/
def outputLoop (count : Nat) : List Op :=
  ⟨.loopStart, 1⟩ :: (List.replicate count ⟨.output, 1⟩ ++ [⟨.loopEnd, 1⟩])

theorem nested_replicate {op : Op} (plain : op.IsPlain) (count : Nat) :
    Nested (List.replicate count op) := by
  induction count with
  | zero => exact nested_nil
  | succ count ih => exact (nested_plain plain).append ih

theorem loopAt_of_placed {program : Program} {body : LoopTree} {start stop : Nat}
    (placed : (LoopTree.loop start body .done).Placed program start (stop + 1)) :
    program.LoopAt start stop := by
  generalize behind : stop + 1 = size at placed
  cases placed with
  | loop head starts_ forward inside foot ends_ back tail =>
      cases tail
      cases behind
      exact ⟨⟨_, head, starts_, forward⟩, ⟨body, inside⟩, ⟨_, foot, ends_, back⟩⟩

theorem resolve_outputLoop {count : Nat} (small : count + 2 ≤ 0x80000000) :
    ∃ program, resolve (outputLoop count) = .ok program ∧ program.size = count + 2 ∧
      program.LoopAt 0 (count + 1) := by
  have plain : Op.IsPlain ⟨.output, 1⟩ := by simp [Op.IsPlain]
  obtain ⟨body, inside⟩ := nested_replicate plain count 1
  have nests : Nests 0 (outputLoop count) (.loop 0 body .done) := .loop rfl rfl inside .done
  have length : (outputLoop count).length = count + 2 := by simp [outputLoop]
  obtain ⟨program, resolved, placed⟩ := resolve_of_nests nests (nests.fits (by omega))
  have size : program.size = count + 2 := by
    rw [← length, ← List.length_map Op.bare, ← (pairing_of_resolve resolved).same, List.length_map]
    rfl
  rw [size] at placed
  exact ⟨program, resolved, size, loopAt_of_placed placed⟩

/-- A loop around outputs takes up 17 bytes for each of them. -/
theorem place_outputLoop {program : Program} {count : Nat}
    (resolved : resolve (outputLoop count) = .ok program) :
    place program (count + 1 + 1) = place program 0 + 17 * count + 14 := by
  have length : (outputLoop count).length = count + 2 := by simp [outputLoop]
  have call : blockSize ⟨.output, 1⟩ = 17 := rfl
  have test : blockSize ⟨.loopStart, 1⟩ = 9 := rfl
  have back : blockSize ⟨.loopEnd, 1⟩ = 5 := rfl
  have start : place program 0 = 13 := rfl
  rw [place_of_resolve resolved, List.take_of_length_le (Nat.le_of_eq length), start, outputLoop]
  simp only [List.map_cons, List.map_append, List.map_replicate, List.map_nil, List.sum_cons,
    List.sum_append, List.sum_replicate_nat, List.sum_nil, call, test, back]
  omega

/-- The largest number of ops for which offsets always fit. -/
theorem always_inRange_iff (host : HostAddresses) (limit : Nat) :
    (∀ source program, resolve source = .ok program → program.size ≤ limit →
      ∀ branch ∈ branches host program, branch.InRange) ↔ limit ≤ 126322568 := by
  constructor
  · intro always
    -- One op more, all but the brackets of them calls, and the jump back does not reach.
    refine Nat.le_of_not_lt fun larger => ?_
    obtain ⟨program, resolved, size, loop⟩ := @resolve_outputLoop 126322567 (by decide)
    obtain ⟨tree, -, -, placed⟩ := placed_of_resolve resolved
    have short := (inRange_iff placed).mp (always _ program resolved (by omega)) 0 _ loop
    have long := place_outputLoop resolved
    omega
  · intro few source program resolved size
    obtain ⟨tree, -, -, placed⟩ := placed_of_resolve resolved
    exact (inRange_iff placed).mpr fun start stop loop => loop_le_of_size loop (by omega)

theorem exit_outputLoop (host : HostAddresses) {count : Nat} (small : count + 2 ≤ 0x80000000) :
    ∃ program, resolve (outputLoop count) = .ok program ∧
      ⟨18, 17 * count + 27⟩ ∈ branches host program ∧
      ∀ side context (machine : Machine), machine.position = 16 → machine.zeroFlag = true →
        machine.step (assemble host program).code.toList side context =
          { machine with position := 22 }.jump (displacement 18 (17 * count + 27)) := by
  obtain ⟨program, resolved, -, loop⟩ := resolve_outputLoop small
  obtain ⟨tree, -, -, placed⟩ := placed_of_resolve resolved
  have behind : place program (count + 1 + 1) = 17 * count + 27 := by
    rw [place_outputLoop resolved, place]
    show 13 + 17 * count + 14 = 17 * count + 27
    omega
  refine ⟨program, resolved, (mem_branches_iff placed).mpr ⟨0, _, loop, .inr ?_⟩, ?_⟩
  · rw [exitBranch, behind]
    rfl
  · intro side context machine here zero
    rw [exit_step host side context placed loop here zero, behind]
    rfl

/-- The exit of a loop around 126322568 outputs has 2147483661 bytes to go.  What is written of
that is negative, and the exit leads in front of the code. -/
theorem assemble_misses :
    ∃ program, resolve (outputLoop 126322568) = .ok program ∧
      ⟨18, 2147483683⟩ ∈ branches ⟨1, 2⟩ program ∧
      ¬ (Branch.mk 18 2147483683).InRange ∧
      (Branch.mk 18 2147483683).offset = 2147483661 ∧ displacement 18 2147483683 = -2147483635 ∧
      ∀ side context (machine : Machine), machine.position = 16 → machine.zeroFlag = true →
        machine.step (assemble ⟨1, 2⟩ program).code.toList side context = .stuck := by
  obtain ⟨program, resolved, member, exits⟩ := @exit_outputLoop ⟨1, 2⟩ 126322568 (by decide)
  have target : 17 * 126322568 + 27 = 2147483683 := by decide
  have written : displacement 18 2147483683 = -2147483635 := by decide
  rw [target] at member exits
  refine ⟨program, resolved, member, by decide, by decide, written, ?_⟩
  intro side context machine here zero
  have before : ¬ (0 : Int) ≤ (22 : Nat) + Int32.toInt (-2147483635) := by decide
  rw [exits side context machine here zero, written, Machine.jump]
  exact if_neg before

end TooFar

end Tapewright.X86
