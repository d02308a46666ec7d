import Tapewright.Proofs.CodeLayout
import Tapewright.Proofs.Pairing

namespace Tapewright.X86

open Program

/-! Loop heads that wait for their loop ends.

While code is assembled, the heads of the open loops wait under the indices of the ops that end
them.  At every op these are the loops that have started and not ended yet, each once, so a loop
end always finds the head of its partner, no head takes the place of another, and none is left
over.  All that a loop end changes of the code before it is the exit of its own loop.
-/

namespace Assembler

theorem size_overwrite (code : Array UInt8) (position : Nat) (bytes : List UInt8) :
    (overwrite code position bytes).size = code.size := by
  induction bytes generalizing code position with
  | nil => rfl
  | cons byte rest ih => rw [overwrite, ih, Array.size_setIfInBounds]

@[simp] theorem size_patch (assembler : Assembler) (field target : Nat) :
    (assembler.patch field target).size = assembler.size := by
  rw [patch]
  split
  · exact size_overwrite ..
  · rfl

theorem getElem?_overwrite {code : Array UInt8} {position index : Nat} {bytes : List UInt8}
    (outside : index < position ∨ position + bytes.length ≤ index) :
    (overwrite code position bytes)[index]? = code[index]? := by
  induction bytes generalizing code position with
  | nil => rfl
  | cons byte rest ih =>
      rw [List.length_cons] at outside
      have elsewhere : position ≠ index := by omega
      calc (overwrite (code.setIfInBounds position byte) (position + 1) rest)[index]?
          = (code.setIfInBounds position byte)[index]? := ih (by omega)
        _ = code[index]? := Array.getElem?_setIfInBounds_ne elsewhere

/-- A patch changes the four bytes of its field and no other. -/
theorem getElem?_patch (assembler : Assembler) {field index : Nat} (target : Nat)
    (outside : index < field ∨ field + 4 ≤ index) :
    (assembler.patch field target).code[index]? = assembler.code[index]? := by
  rw [patch]
  split
  · apply getElem?_overwrite
    rwa [bytes32_length]
  · rfl

end Assembler

section Pending

variable {pending : List (Nat × LoopHead)} {key : Nat} {head : LoopHead}

theorem lookup_of_mem (keys : (pending.map Prod.fst).Nodup) (member : (key, head) ∈ pending) :
    pending.lookup key = some head := by
  obtain ⟨front, back, rfl⟩ := List.append_of_mem member
  refine List.lookup_eq_some_iff.mpr ⟨front, back, rfl, ?_⟩
  intro entry before
  rw [List.map_append, List.map_cons, List.nodup_append] at keys
  have different := keys.2.2 entry.1 (List.mem_map_of_mem before) key (List.mem_cons_self ..)
  simpa using different.symm

/-- Where no key stands twice, erasing a key leaves every other. -/
theorem mem_eraseP_key (keys : (pending.map Prod.fst).Nodup) (member : (key, head) ∈ pending)
    {entry : Nat × LoopHead} :
    entry ∈ pending.eraseP (·.1 == key) ↔ entry ∈ pending ∧ entry.1 ≠ key := by
  by_cases same : entry.1 = key
  · obtain ⟨erased, front, back, -, isKey, rfl, rest⟩ :=
      @List.exists_of_eraseP _ (·.1 == key) _ _ member (beq_self_eq_true key)
    have erasedKey : erased.1 = key := beq_iff_eq.mp isKey
    have order : (front ++ erased :: back).Perm (erased :: (front ++ back)) := List.perm_middle
    have others := (List.nodup_cons.mp ((order.map Prod.fst).nodup keys)).1
    rw [erasedKey, ← same] at others
    rw [rest]
    exact ⟨fun inside => absurd (List.mem_map_of_mem inside) others, fun both => absurd same both.2⟩
  · rw [List.mem_eraseP_of_neg (by simpa using same)]
    exact ⟨fun inside => ⟨inside, same⟩, And.left⟩

end Pending

namespace Assembly

variable {host : HostAddresses} {program : Program} {count : Nat} {op : Op}

theorem blocks_append (assembly : Assembly) (index : Nat) (front back : List Op) :
    assembly.blocks host index (front ++ back) =
      (assembly.blocks host index front).blocks host (index + front.length) back := by
  induction front generalizing assembly index with
  | nil => rfl
  | cons op rest ih =>
      rw [List.cons_append, blocks, ih, blocks, List.length_cons, Nat.add_assoc, Nat.add_comm 1]

/-- The assembly once so many ops of a program are done. -/
def upTo (host : HostAddresses) (program : Program) (count : Nat) : Assembly :=
  start.blocks host 0 (program.ops.toList.take count)

theorem upTo_succ (found : program.ops[count]? = some op) :
    upTo host program (count + 1) = (upTo host program count).block host count op := by
  have inside : count < program.ops.toList.length := (Array.getElem?_eq_some_iff.mp found).1
  have next : program.ops.toList[count]? = some op := (Array.getElem?_toList ..).trans found
  have length : (program.ops.toList.take count).length = count := by
    rw [List.length_take]
    omega
  rw [upTo, List.take_add_one, next, blocks_append, length, Nat.zero_add]
  rfl

/-- Ops other than loop ends add to the code and change none of it. -/
theorem block_appends {index : Nat} (noEnd : op.opcode ≠ .loopEnd) (assembly : Assembly) :
    ∃ instructions, (assembly.block host index op).assembler =
      assembly.assembler.emit instructions := by
  obtain ⟨assembler, pending⟩ := assembly
  by_cases start : op.opcode = .loopStart
  · exact ⟨jumpIfZero, by rw [block_loopStart start]⟩
  · exact ⟨_, by rw [block_plain ⟨start, noEnd⟩ assembler pending fun _ => 0]⟩

theorem closeLoop_of_lookup {assembler : Assembler} {pending : List (Nat × LoopHead)} {index : Nat}
    {head : LoopHead} (found : pending.lookup index = some head) :
    closeLoop ⟨assembler, pending⟩ index =
      ⟨(assembler.emitJumpBack head.start).patch head.exitField
        (assembler.emitJumpBack head.start).size, pending.eraseP (·.1 == index)⟩ := by
  simp only [closeLoop, found]

end Assembly

section Brackets

variable {program : Program} {start close index : Nat} {op : Op}

theorem start_ne_of_opcode (loop : program.LoopAt start close) (found : program.ops[index]? = some op)
    (noStart : op.opcode ≠ .loopStart) : start ≠ index := by
  rintro rfl
  obtain ⟨first, same, starts_, -⟩ := loop.head
  rw [found] at same
  cases same
  exact noStart starts_

theorem close_ne_of_opcode (loop : program.LoopAt start close) (found : program.ops[index]? = some op)
    (noEnd : op.opcode ≠ .loopEnd) : close ≠ index := by
  rintro rfl
  obtain ⟨last, same, ends_, -⟩ := loop.foot
  rw [found] at same
  cases same
  exact noEnd ends_

end Brackets

/-- The head of the loop that starts with an op, when the block of each op starts at its place. -/
def headAt (program : Program) (start : Nat) : LoopHead :=
  ⟨place program start, place program start + 5⟩

/-- An assembly that has done so many ops: its code ends at the place of the next block, and the
loops that are open wait under the indices of their ends. -/
structure Done (program : Program) (count : Nat) (assembly : Assembly) : Prop where
  size : assembly.assembler.size = place program count
  keys : (assembly.pending.map Prod.fst).Nodup
  waiting : ∀ {close head}, (close, head) ∈ assembly.pending ↔
    ∃ start, program.LoopAt start close ∧ start < count ∧ count ≤ close ∧ head = headAt program start

namespace Done

variable {host : HostAddresses} {program : Program} {tree : LoopTree} {count start close : Nat}
  {op : Op} {assembly : Assembly}

theorem initial (program : Program) : Done program 0 Assembly.start := by
  refine ⟨rfl, List.nodup_nil, ?_⟩
  intro close head
  simp [Assembly.start]

theorem lookup (done : Done program count assembly) (loop : program.LoopAt start close)
    (open_ : start < count) (unended : count ≤ close) :
    assembly.pending.lookup close = some (headAt program start) :=
  lookup_of_mem done.keys (done.waiting.mpr ⟨start, loop, open_, unended, rfl⟩)

/-- A loop that has not started yet has no head, and neither has any other with the same end. -/
theorem lookup_none (done : Done program count assembly) (loop : program.LoopAt start close)
    (later : count ≤ start) : assembly.pending.lookup close = none := by
  refine List.lookup_eq_none_iff.mpr ?_
  rintro ⟨key, head⟩ member
  obtain ⟨other, otherLoop, earlier, -, -⟩ := done.waiting.mp member
  have different : close ≠ key := by
    rintro rfl
    have same := loop.start_unique otherLoop
    omega
  simpa using different

theorem plain (done : Done program count assembly) (found : program.ops[count]? = some op)
    (plain : op.IsPlain) : Done program (count + 1) (assembly.block host count op) := by
  obtain ⟨assembler, pending⟩ := assembly
  rw [Assembly.block_plain plain assembler pending (place program)]
  refine ⟨?_, done.keys, ?_⟩
  · have size : assembler.size = place program count := done.size
    rw [Assembler.size_emit, length_blockOf, place_succ found, size]
  · intro close head
    refine done.waiting.trans (exists_congr fun start => and_congr_right fun loop => ?_)
    rw [← and_assoc, ← and_assoc]
    refine and_congr_left fun _ => ?_
    have noStart := start_ne_of_opcode loop found plain.1
    have noEnd := close_ne_of_opcode loop found plain.2
    omega

theorem opens (done : Done program count assembly) (found : program.ops[count]? = some op)
    (loop : program.LoopAt count close) : Done program (count + 1) (assembly.block host count op) := by
  obtain ⟨first, same, starts_, forward⟩ := loop.head
  rw [found] at same
  cases same
  have free := done.lookup_none loop (Nat.le_refl _)
  have later := loop.lt
  obtain ⟨assembler, pending⟩ := assembly
  have size : assembler.size = place program count := done.size
  rw [Assembly.block_loopStart starts_, forward, size]
  refine ⟨?_, ?_, ?_⟩
  · have jump : blockSize op = (encodeAll jumpIfZero).length := by
      rw [blockSize, blockOf, starts_]
      rfl
    rw [Assembler.size_emit, size, place_succ found, jump]
  · rw [List.map_cons, List.nodup_cons]
    refine ⟨fun taken => ?_, done.keys⟩
    obtain ⟨entry, member, key⟩ := List.mem_map.mp taken
    have different := List.lookup_eq_none_iff.mp free entry member
    simp [key] at different
  · intro key head
    rw [List.mem_cons, Prod.mk.injEq]
    refine ⟨?_, ?_⟩
    · rintro (⟨rfl, rfl⟩ | member)
      · exact ⟨count, loop, Nat.lt_succ_self _, later, rfl⟩
      · obtain ⟨start, other, earlier, unended, rfl⟩ := done.waiting.mp member
        have noEnd := close_ne_of_opcode other found (by simp [starts_])
        exact ⟨start, other, by omega, by omega, rfl⟩
    · rintro ⟨start, other, earlier, unended, rfl⟩
      by_cases here : start = count
      · subst here
        exact .inl ⟨loop.stop_unique other, rfl⟩
      · exact .inr (done.waiting.mpr ⟨start, other, by omega, by omega, rfl⟩)

theorem closes (done : Done program count assembly) (found : program.ops[count]? = some op)
    (loop : program.LoopAt start count) : Done program (count + 1) (assembly.block host count op) := by
  obtain ⟨last, same, ends_, back⟩ := loop.foot
  rw [found] at same
  cases same
  have waits := done.lookup loop loop.lt (Nat.le_refl _)
  have member := done.waiting.mpr ⟨start, loop, loop.lt, Nat.le_refl _, rfl⟩
  obtain ⟨assembler, pending⟩ := assembly
  have size : assembler.size = place program count := done.size
  simp only [Assembly.block, ends_]
  rw [Assembly.closeLoop_of_lookup waits]
  refine ⟨?_, ?_, ?_⟩
  · have jump : jumpBack (place program count) (headAt program start).start =
        blockOf host (place program) count op := by
      simp only [blockOf, ends_, back, jumpBack, headAt]
    rw [Assembler.size_patch, Assembler.emitJumpBack, Assembler.size_emit, size, jump,
      length_blockOf, place_succ found]
  · exact done.keys.sublist (List.eraseP_sublist.map Prod.fst)
  · intro key head
    rw [mem_eraseP_key done.keys member]
    constructor
    · rintro ⟨inside, different⟩
      obtain ⟨other, otherLoop, earlier, unended, rfl⟩ := done.waiting.mp inside
      exact ⟨other, otherLoop, by omega, by omega, rfl⟩
    · rintro ⟨other, otherLoop, earlier, unended, rfl⟩
      have noStart := start_ne_of_opcode otherLoop found (by simp [ends_])
      exact ⟨done.waiting.mpr ⟨other, otherLoop, by omega, by omega, rfl⟩, by omega⟩

theorem step (placed : tree.Placed program 0 program.size) (done : Done program count assembly)
    (found : program.ops[count]? = some op) :
    Done program (count + 1) (assembly.block host count op) := by
  have inside : count < program.size := (Array.getElem?_eq_some_iff.mp found).1
  by_cases start : op.opcode = .loopStart
  · obtain ⟨close, -, loop⟩ := placed.loopAt_of_start (Nat.zero_le _) inside found start
    exact done.opens found loop
  by_cases stop : op.opcode = .loopEnd
  · obtain ⟨start, loop⟩ := placed.loopAt_of_end (Nat.zero_le _) inside found stop
    exact done.closes found loop
  · exact done.plain found ⟨start, stop⟩

/-- A loop ends inside the program, so behind the last op nothing waits. -/
theorem pending_nil (done : Done program program.size assembly) : assembly.pending = [] := by
  refine List.eq_nil_iff_forall_not_mem.mpr ?_
  rintro ⟨close, head⟩ member
  obtain ⟨start, loop, -, beyond, -⟩ := done.waiting.mp member
  obtain ⟨last, foot, -⟩ := loop.foot
  exact absurd (Array.getElem?_eq_some_iff.mp foot).1 (Nat.not_lt.mpr beyond)

theorem upTo (host : HostAddresses) (placed : tree.Placed program 0 program.size)
    (within : count ≤ program.size) : Done program count (Assembly.upTo host program count) := by
  induction count with
  | zero => exact .initial program
  | succ count ih =>
      have found := Array.getElem?_eq_getElem within
      rw [Assembly.upTo_succ found]
      exact (ih (Nat.le_of_succ_le within)).step placed found

end Done

/-- Where a block starts: behind the prologue and the blocks before it. -/
def blockStart (blocks : List (List Instruction)) (index : Nat) : Nat :=
  (encodeAll (prologue ++ (blocks.take index).flatten)).length

/-- How a loop comes out in code that is laid out in blocks, and how it got there.  The displacement
of its exit is the last four of the nine bytes of its first block. -/
structure LoopCode (host : HostAddresses) (program : Program) (blocks : List (List Instruction))
    (start stop : Nat) : Prop where
  /-- The exit leads to the block behind the loop. -/
  exit : blocks[start]? = some [.cmpCellImm8 0,
    .jz (Int32.ofInt ((blockStart blocks (stop + 1) : Int) - (blockStart blocks start + 9 : Nat)))]
  /-- The end leads back to the test. -/
  back : blocks[stop]? = some
    [.jmp (Int32.ofInt ((blockStart blocks start : Int) - blockStart blocks (stop + 1)))]
  /-- The head of the loop takes no other's place. -/
  free : (Assembly.upTo host program start).pending.lookup stop = none
  /-- The head waits, unchanged, until the end of the loop has found it. -/
  waits : ∀ count, start < count → count ≤ stop →
    (Assembly.upTo host program count).pending.lookup stop =
      some ⟨blockStart blocks start, blockStart blocks start + 5⟩
  /-- The end of the loop appends its jump and changes no other byte than those of the exit. -/
  patched : ∀ position,
    position < blockStart blocks start + 5 ∨ blockStart blocks start + 9 ≤ position →
    (Assembly.upTo host program (stop + 1)).assembler.code[position]? =
      ((Assembly.upTo host program stop).assembler.emitJumpBack (blockStart blocks start)).code[position]?

/-- How the code of a program is put together. -/
structure Backpatched (host : HostAddresses) (program : Program) (blocks : List (List Instruction)) :
    Prop where
  code : (assemble host program).code.toList =
    encodeAll prologue ++ encodeAll blocks.flatten ++ encodeAll epilogue
  count : blocks.length = program.size
  own : ∀ {index op}, program.ops[index]? = some op →
    blocks[index]? = some (blockOf host (blockStart blocks) index op)
  opened : ∀ {start op}, program.ops[start]? = some op → op.opcode = .loopStart →
    ∃ stop, program.Holds .loopStart start stop ∧ program.Holds .loopEnd stop start ∧
      LoopCode host program blocks start stop
  closed : ∀ {stop op}, program.ops[stop]? = some op → op.opcode = .loopEnd →
    ∃ start, program.Holds .loopStart start stop ∧ program.Holds .loopEnd stop start ∧
      LoopCode host program blocks start stop
  /-- An op that ends no loop leaves all code before it alone. -/
  appended : ∀ {index op}, program.ops[index]? = some op → op.opcode ≠ .loopEnd →
    ∃ instructions, (Assembly.upTo host program (index + 1)).assembler =
      (Assembly.upTo host program index).assembler.emit instructions
  reached : ∀ index, index ≤ program.size →
    (Assembly.upTo host program index).assembler.size = blockStart blocks index
  settled : (Assembly.upTo host program program.size).pending = []
  ended : assemble host program = (Assembly.upTo host program program.size).assembler.emit epilogue

section Layout

variable {host : HostAddresses} {program : Program} {tree : LoopTree} {start stop : Nat}

def blocksOf (host : HostAddresses) (program : Program) : List (List Instruction) :=
  program.ops.toList.mapIdx (blockOf host (place program))

theorem getElem?_blocksOf (host : HostAddresses) (program : Program) (index : Nat) :
    (blocksOf host program)[index]? =
      (program.ops[index]?).map (blockOf host (place program) index) := by
  rw [blocksOf, List.getElem?_mapIdx, Array.getElem?_toList]

theorem blockStart_blocksOf (host : HostAddresses) (program : Program) :
    blockStart (blocksOf host program) = place program := by
  funext index
  induction index with
  | zero => rfl
  | succ index ih =>
      rw [blockStart, List.take_add_one, List.flatten_append, ← List.append_assoc, encodeAll_append,
        List.length_append, ← blockStart, ih, getElem?_blocksOf, place]
      cases found : program.ops[index]? with
      | none => rfl
      | some op => simp [length_blockOf]

theorem length_blocksOf (host : HostAddresses) (program : Program) :
    (blocksOf host program).length = program.size := by
  rw [blocksOf, List.length_mapIdx, Array.length_toList, Program.size]

theorem Spans.eq_flatten {index : Nat} {out : List Instruction}
    (spans : Spans host program index stop out) (all : stop = program.size) :
    out = ((blocksOf host program).drop index).flatten := by
  induction spans with
  | nil =>
      rw [all, List.drop_eq_nil_of_le (Nat.le_of_eq (length_blocksOf host program))]
      rfl
  | @cons index stop op rest found _ ih =>
      have here : (blocksOf host program)[index]? = some (blockOf host (place program) index op) := by
        rw [getElem?_blocksOf, found]
        rfl
      obtain ⟨inside, block⟩ := List.getElem?_eq_some_iff.mp here
      rw [List.drop_eq_getElem_cons inside, block, List.flatten_cons, ih all]

theorem loopAt_of_holds (placed : tree.Placed program 0 program.size)
    (paired : program.Holds .loopStart start stop) : program.LoopAt start stop := by
  obtain ⟨first, head, starts_, held⟩ := paired
  obtain ⟨close, -, loop⟩ := placed.loopAt_of_start (Nat.zero_le _)
    (Array.getElem?_eq_some_iff.mp head).1 head starts_
  obtain ⟨again, same, -, forward⟩ := loop.head
  rw [head] at same
  cases same
  have target : first.target = stop := by
    rw [Op.target, ← Int32.toNat_toInt, held]
    rfl
  rwa [← target, forward]

theorem loopCode (host : HostAddresses) (placed : tree.Placed program 0 program.size)
    (loop : program.LoopAt start stop) : LoopCode host program (blocksOf host program) start stop := by
  obtain ⟨first, head, starts_, forward⟩ := loop.head
  obtain ⟨last, foot, ends_, back⟩ := loop.foot
  have inside : stop < program.size := (Array.getElem?_eq_some_iff.mp foot).1
  have later := loop.lt
  have done (count : Nat) (within : count ≤ program.size) := @Done.upTo program tree count host placed within
  have waits := (done stop (Nat.le_of_lt inside)).lookup loop later (Nat.le_refl _)
  have places := blockStart_blocksOf host program
  constructor
  case exit =>
    rw [places, getElem?_blocksOf, head]
    simp only [Option.map_some, blockOf, starts_, forward, displacement]
  case back =>
    have behind : place program (stop + 1) = place program stop + 1 + 4 := by
      rw [place_succ foot, blockSize, blockOf, ends_]
      rfl
    rw [places, getElem?_blocksOf, foot, behind]
    simp only [Option.map_some, blockOf, ends_, back, displacement]
  case free => exact (done start (by omega)).lookup_none loop (Nat.le_refl _)
  case waits =>
    rw [places]
    intro count started unended
    exact (done count (by omega)).lookup loop started unended
  case patched =>
    rw [places]
    intro position outside
    simp only [Assembly.upTo_succ foot, Assembly.block, ends_, Assembly.closeLoop_of_lookup waits]
    exact Assembler.getElem?_patch _ _ outside

/-- Backpatching is complete and hits the right places.  The code of a resolved program is its
prologue, one block for each op, and its epilogue.  The exit of every loop leads to the block
behind the loop and the jump at its end to the block of its start.  Every loop end finds the
head of its partner, no head is ever replaced, none is left at the end, and a patch alters no
byte outside its field. -/
theorem assemble_backpatched (host : HostAddresses) {source : List Op}
    (resolved : resolve source = .ok program) : ∃ blocks, Backpatched host program blocks := by
  obtain ⟨tree, -, -, placed⟩ := placed_of_resolve resolved
  obtain ⟨out, spans, whole⟩ := assemble_code host placed
  have pairing := pairing_of_resolve resolved
  have places := blockStart_blocksOf host program
  refine ⟨blocksOf host program, ?_⟩
  constructor
  case code => rw [whole, encodeAll_append, encodeAll_append, spans.eq_flatten rfl, List.drop_zero]
  case count => exact length_blocksOf host program
  case own =>
    intro index op found
    rw [getElem?_blocksOf, found, places]
    rfl
  case opened =>
    intro start op found starts_
    obtain ⟨stop, -, forward, back, -⟩ := pairing.closed found starts_
    exact ⟨stop, forward, back, loopCode host placed (loopAt_of_holds placed forward)⟩
  case closed =>
    intro stop op found ends_
    obtain ⟨start, forward, -⟩ := pairing.opened found ends_
    have loop := loopAt_of_holds placed forward
    obtain ⟨first, head, starts_, -⟩ := loop.head
    obtain ⟨close, -, alsoForward, back, -⟩ := pairing.closed head starts_
    obtain rfl := loop.stop_unique (loopAt_of_holds placed alsoForward)
    exact ⟨start, forward, back, loopCode host placed loop⟩
  case appended =>
    intro index op found noEnd
    rw [Assembly.upTo_succ found]
    exact Assembly.block_appends noEnd _
  case reached =>
    intro index within
    rw [places]
    exact (Done.upTo host placed within).size
  case settled => exact (Done.upTo host placed (Nat.le_refl _)).pending_nil
  case ended =>
    have all : program.ops.toList.take program.size = program.ops.toList := List.take_length
    rw [assemble, Assembly.upTo, all]

/-- In `[>[-]]` the exit of the inner loop passes over the step and the jump back. -/
theorem assemble_backpatched_inner_loop :
    resolve (Source.ops "[>[-]]") = .ok ⟨#[⟨.loopStart, 5⟩, ⟨.shiftRight, 1⟩, ⟨.loopStart, 4⟩,
        ⟨.decrement, 1⟩, ⟨.loopEnd, 2⟩, ⟨.loopEnd, 0⟩]⟩ ∧
      ∃ blocks, Backpatched ⟨1, 2⟩ ⟨#[⟨.loopStart, 5⟩, ⟨.shiftRight, 1⟩, ⟨.loopStart, 4⟩,
        ⟨.decrement, 1⟩, ⟨.loopEnd, 2⟩, ⟨.loopEnd, 0⟩]⟩ blocks ∧
        blocks[2]? = some [.cmpCellImm8 0, .jz 8] ∧ blocks[4]? = some [.jmp (-17)] := by
  have resolved : resolve (Source.ops "[>[-]]") = .ok ⟨#[⟨.loopStart, 5⟩, ⟨.shiftRight, 1⟩,
    ⟨.loopStart, 4⟩, ⟨.decrement, 1⟩, ⟨.loopEnd, 2⟩, ⟨.loopEnd, 0⟩]⟩ := rfl
  obtain ⟨blocks, patched⟩ := assemble_backpatched ⟨1, 2⟩ resolved
  refine ⟨resolved, blocks, patched, ?_, ?_⟩
  · rw [@Backpatched.own _ _ _ patched 2 ⟨.loopStart, 4⟩ rfl]
    have here : blockStart blocks 2 = 26 := (patched.reached 2 (by decide)).symm
    have behind : blockStart blocks 5 = 43 := (patched.reached 5 (by decide)).symm
    have target : Op.target ⟨.loopStart, 4⟩ = 4 := rfl
    simp only [blockOf, target, here, behind]
    decide
  · rw [@Backpatched.own _ _ _ patched 4 ⟨.loopEnd, 2⟩ rfl]
    have here : blockStart blocks 4 = 38 := (patched.reached 4 (by decide)).symm
    have start : blockStart blocks 2 = 26 := (patched.reached 2 (by decide)).symm
    have target : Op.target ⟨.loopEnd, 2⟩ = 2 := rfl
    simp only [blockOf, target, here, start]
    decide

end Layout

end Tapewright.X86
