import Tapewright.Proofs.CodeLayout
import Tapewright.Proofs.Words
import Tapewright.X86.Idiom

namespace Tapewright.X86

/-! Assembled code reads back as what was asked for.

Whatever is emitted and patched, in whatever order, the code is a sequence of idioms, one for
each call that emits something.  A patch only changes where one of them jumps to, so in the end
every jump goes to the last target it was given.
-/

namespace Idiom

/-- The instructions of an idiom, with immediates in the shortest form that holds them. -/
def instructions : Idiom → List Instruction
  | .prologue => X86.prologue
  | .epilogue => X86.epilogue
  | .addPointer bytes => X86.addPointer bytes
  | .addCell value => X86.addCell value
  | .storeCell value => X86.storeCell value
  | .callWithCell address => X86.callWithCell address
  | .callIntoCell address => X86.callIntoCell address
  | .jumpIfZero displacement => [.cmpCellImm8 0, .jz displacement]
  | .jump displacement => [.jmp displacement]

/-- Whatever follows an idiom, reading gives the idiom back and stops right behind it. -/
theorem read?_instructions_append (idiom : Idiom) (rest : List Instruction) :
    read? (idiom.instructions ++ rest) = some (idiom, rest) := by
  cases idiom with
  | addPointer bytes =>
      rw [instructions, X86.addPointer]
      split
      · rename_i short
        exact congrArg (fun bytes => some (Idiom.addPointer bytes, rest))
          (toInt64_toInt8 short.1 short.2)
      · split
        · rename_i short
          exact congrArg (fun bytes => some (Idiom.addPointer bytes, rest))
            (toInt64_toInt32 short.1 short.2)
        · exact congrArg (fun bytes => some (Idiom.addPointer bytes, rest))
            (Int64.toInt64_toUInt64 bytes)
  | addCell value =>
      rw [instructions, X86.addCell]
      split
      · rename_i short
        exact congrArg (fun value => some (Idiom.addCell value, rest))
          (toInt32_toInt8 short.1 short.2)
      · rfl
  | _ => rfl

theorem instructions_ne_nil (idiom : Idiom) : idiom.instructions ≠ [] := by
  cases idiom with
  | addPointer bytes =>
      rw [instructions, X86.addPointer]
      split
      · simp
      · split <;> simp
  | addCell value =>
      rw [instructions, X86.addCell]
      split <;> simp
  | _ => simp [instructions, X86.prologue, X86.epilogue, X86.storeCell, X86.callWithCell,
      X86.callIntoCell]

end Idiom

/-- An assembler that has emitted the idioms, with the displacements they have. -/
def listing (idioms : List Idiom) : Assembler :=
  Assembler.empty.emit (idioms.flatMap Idiom.instructions)

theorem decodeAll_listing (idioms : List Idiom) :
    decodeAll (listing idioms).code.toList = some (idioms.flatMap Idiom.instructions) := by
  rw [listing, Assembler.toList_emit]
  exact decodeAll_encodeAll _

theorem disassemble_listing (idioms : List Idiom) :
    disassemble (listing idioms).code.toList = some idioms := by
  rw [disassemble, decodeAll_listing]
  exact readAll_flatMap Idiom.read?_instructions_append Idiom.instructions_ne_nil idioms

/-- Make calls one after another. -/
def Assembler.performAll (assembler : Assembler) : List Call → Assembler
  | [] => assembler
  | call :: rest => (assembler.perform call).2.performAll rest

def Call.patched? : Call → Option Nat
  | .patch field _ => some field
  | _ => none

def CallResult.field? : CallResult → Option Nat
  | .field position => some position
  | _ => none

/-- Every patch goes to a field that a jump on zero has returned before. -/
def PatchesReturned (assembler : Assembler) (fields : List Nat) : List Call → Prop
  | [] => True
  | call :: rest =>
      (∀ field ∈ call.patched?, field ∈ fields) ∧
        PatchesReturned (assembler.perform call).2
          ((assembler.perform call).1.field?.toList ++ fields) rest

instance decidablePatchesReturned (assembler : Assembler) (fields : List Nat) :
    (calls : List Call) → Decidable (PatchesReturned assembler fields calls)
  | [] => .isTrue trivial
  | call :: rest =>
      have := decidablePatchesReturned (assembler.perform call).2
        ((assembler.perform call).1.field?.toList ++ fields) rest
      inferInstanceAs (Decidable (_ ∧ _))

/-- Whether a jump that ends at a place takes a target.  Targets from 2^63 on count as negative,
and the lowest of them are more than 2^63 bytes away. -/
def Accepts (stop target : Nat) : Prop :=
  target < 0x8000000000000000 ∨ 0x8000000000000000 + stop ≤ target

instance (stop target : Nat) : Decidable (Accepts stop target) :=
  inferInstanceAs (Decidable (_ ∨ _))

/-- The displacement of a jump that ends at a place, modulo 2^32; zero while it has no target. -/
def distance (stop : Nat) : Option Nat → Int32
  | none => 0
  | some target => Int32.ofInt ((target : Int) - stop)

/-- The target that a call sets a field to. -/
def Call.sets? (call : Call) (field : Nat) : Option Nat :=
  match call with
  | .patch other target => if other = field ∧ Accepts (field + 4) target then some target else none
  | _ => none

/-- The last target that calls set a field to. -/
def lastTarget? (field : Nat) : List Call → Option Nat
  | [] => none
  | call :: rest => (lastTarget? field rest).or (call.sets? field)

/-- What a call asks for, with so many bytes of code before it and other calls after it.  A jump
on zero takes nine bytes, the last four of which are its field; a jump back takes five. -/
def Call.asks (position : Nat) (later : List Call) : Call → Option Idiom
  | .prologue => some .prologue
  | .epilogue => some .epilogue
  | .addPointer bytes => some (.addPointer bytes)
  | .addCell value => some (.addCell value)
  | .storeCell value => some (.storeCell value)
  | .callWithCell address => some (.callWithCell address)
  | .callIntoCell address => some (.callIntoCell address)
  | .jumpIfZero =>
      some (.jumpIfZero (distance (position + 9) (lastTarget? (position + 5) later)))
  | .jumpBack target =>
      some (.jump (distance (position + 5)
        (if Accepts (position + 5) target then some target else none)))
  | .patch _ _ => none

/-- What calls ask for, in order. -/
def asked (assembler : Assembler) : List Call → List Idiom
  | [] => []
  | call :: rest =>
      (call.asks assembler.size rest).toList ++ asked (assembler.perform call).2 rest

section Retargeting

variable {idioms left right : List Idiom} {idiom : Idiom} {aim other : Nat → Option Nat}
  {position : Nat}

def Idiom.size (idiom : Idiom) : Nat :=
  (encodeAll idiom.instructions).length

theorem Idiom.size_pos (idiom : Idiom) : 0 < idiom.size := by
  cases code : idiom.instructions with
  | nil => exact absurd code idiom.instructions_ne_nil
  | cons instruction rest =>
      have positive := List.length_pos_iff.mpr instruction.encode_ne_nil
      simp only [Idiom.size, code, encodeAll, List.flatMap_cons, List.length_append]
      omega

/-- How many bytes idioms take. -/
def extent (idioms : List Idiom) : Nat :=
  (encodeAll (idioms.flatMap Idiom.instructions)).length

theorem extent_cons (idiom : Idiom) (idioms : List Idiom) :
    extent (idiom :: idioms) = idiom.size + extent idioms := by
  rw [extent, List.flatMap_cons, encodeAll_append, List.length_append]
  rfl

theorem extent_append (left right : List Idiom) :
    extent (left ++ right) = extent left + extent right := by
  rw [extent, List.flatMap_append, encodeAll_append, List.length_append]
  rfl

theorem size_listing (idioms : List Idiom) : (listing idioms).size = extent idioms := by
  rw [listing, Assembler.size_emit]
  exact Nat.zero_add _

theorem listing_append (left right : List Idiom) :
    listing (left ++ right) = (listing left).emit (right.flatMap Idiom.instructions) := by
  rw [listing, listing, List.flatMap_append, Assembler.emit_emit]

/-- The idiom at a position, once the fields that are given a target have it. -/
def Idiom.retarget (aim : Nat → Option Nat) (position : Nat) : Idiom → Idiom
  | .jumpIfZero old =>
      match aim (position + 5) with
      | none => .jumpIfZero old
      | some target => .jumpIfZero (distance (position + 9) (some target))
  | idiom => idiom

def retargetAll (aim : Nat → Option Nat) (position : Nat) : List Idiom → List Idiom
  | [] => []
  | idiom :: rest => idiom.retarget aim position :: retargetAll aim (position + idiom.size) rest

theorem size_retarget (aim : Nat → Option Nat) (position : Nat) (idiom : Idiom) :
    (idiom.retarget aim position).size = idiom.size := by
  cases idiom with
  | jumpIfZero old =>
      cases given : aim (position + 5) with
      | none => simp only [Idiom.retarget, given]
      | some target => simp only [Idiom.retarget, given]; rfl
  | _ => rfl

theorem extent_retargetAll : extent (retargetAll aim position idioms) = extent idioms := by
  induction idioms generalizing position with
  | nil => rfl
  | cons idiom rest ih => rw [retargetAll, extent_cons, extent_cons, size_retarget, ih]

theorem retargetAll_append :
    retargetAll aim position (left ++ right) =
      retargetAll aim position left ++ retargetAll aim (position + extent left) right := by
  induction left generalizing position with
  | nil => rfl
  | cons idiom rest ih =>
      rw [List.cons_append, retargetAll, ih, retargetAll, extent_cons, Nat.add_assoc]
      rfl

/-- Later targets replace earlier ones. -/
theorem retargetAll_retargetAll :
    retargetAll other position (retargetAll aim position idioms) =
      retargetAll (fun field => (other field).or (aim field)) position idioms := by
  induction idioms generalizing position with
  | nil => rfl
  | cons idiom rest ih =>
      have both : (idiom.retarget aim position).retarget other position =
          idiom.retarget (fun field => (other field).or (aim field)) position := by
        cases idiom with
        | jumpIfZero old =>
            cases given : other (position + 5) <;> cases before : aim (position + 5) <;>
              simp [Idiom.retarget, given, before]
        | _ => rfl
      rw [retargetAll, retargetAll, retargetAll, size_retarget, ih, both]

/-- Fields are five bytes into their idioms, so targets for other places change nothing. -/
theorem retargetAll_outside
    (outside : ∀ field, position + 5 ≤ field → field < position + extent idioms + 5 →
      aim field = none) :
    retargetAll aim position idioms = idioms := by
  induction idioms generalizing position with
  | nil => rfl
  | cons idiom rest ih =>
      have size := extent_cons idiom rest
      have positive := idiom.size_pos
      have here : aim (position + 5) = none := outside _ (Nat.le_refl _) (by omega)
      have same : idiom.retarget aim position = idiom := by
        cases idiom <;> simp [Idiom.retarget, here]
      rw [retargetAll, same, ih]
      intro field after before
      exact outside field (by omega) (by omega)

end Retargeting

/-- The field of one of the jumps on zero. -/
def IsField (idioms : List Idiom) (field : Nat) : Prop :=
  ∃ front old back, idioms = front ++ .jumpIfZero old :: back ∧ field = extent front + 5

section Calls

variable {idioms : List Idiom} {idiom : Idiom} {field target : Nat}

theorem IsField.append (isField : IsField idioms field) (more : List Idiom) :
    IsField (idioms ++ more) field := by
  obtain ⟨front, old, back, rfl, place⟩ := isField
  exact ⟨front, old, back ++ more, by simp, place⟩

theorem IsField.retargetAll (isField : IsField idioms field) (aim : Nat → Option Nat) :
    IsField (retargetAll aim 0 idioms) field := by
  obtain ⟨front, old, back, rfl, place⟩ := isField
  have jump : ∃ new, (Idiom.jumpIfZero old).retarget aim (0 + extent front) = .jumpIfZero new := by
    rw [Nat.zero_add, Idiom.retarget]
    cases aim (extent front + 5) <;> exact ⟨_, rfl⟩
  obtain ⟨new, same⟩ := jump
  refine ⟨X86.retargetAll aim 0 front, new,
    X86.retargetAll aim (0 + extent front + (Idiom.jumpIfZero old).size) back, ?_, ?_⟩
  · rw [retargetAll_append, X86.retargetAll, same]
  · rw [extent_retargetAll, place]

theorem IsField.hasField (isField : IsField idioms field) :
    (listing idioms).hasField field = true := by
  obtain ⟨front, old, back, rfl, rfl⟩ := isField
  have size : (Idiom.jumpIfZero old).size = 9 := rfl
  rw [Assembler.hasField, size_listing, extent_append, extent_cons, size, decide_eq_true_eq]
  omega

theorem reaches_eq (field target : Nat) :
    reaches field target = decide (Accepts (field + 4) target) := by
  rw [reaches, Nat.add_assoc]
  exact (Bool.decide_or ..).symm

theorem listing_split (front : List Idiom) (displacement : Int32) (back : List Idiom) :
    listing (front ++ .jumpIfZero displacement :: back) =
      (listing front).emit ([.cmpCellImm8 0, .jz displacement] ++ back.flatMap Idiom.instructions) := by
  rw [listing_append, List.flatMap_cons]
  rfl

/-- A patch of the field of a jump gives the jump its target, or is refused. -/
theorem perform_patch (isField : IsField idioms field) :
    ((listing idioms).perform (.patch field target)).2 =
      listing (retargetAll (Call.patch field target).sets? 0 idioms) := by
  rw [Assembler.perform, isField.hasField, reaches_eq, Bool.true_and]
  by_cases accepted : Accepts (field + 4) target
  · rw [if_pos (decide_eq_true accepted)]
    obtain ⟨front, old, back, rfl, rfl⟩ := isField
    have here : (Call.patch (extent front + 5) target).sets? (extent front + 5) = some target :=
      if_pos ⟨rfl, accepted⟩
    have elsewhere (other : Nat) (different : extent front + 5 ≠ other) :
        (Call.patch (extent front + 5) target).sets? other = none :=
      if_neg fun set => different set.1
    have size : (Idiom.jumpIfZero old).size = 9 := rfl
    have before : retargetAll (Call.patch (extent front + 5) target).sets? 0 front = front :=
      retargetAll_outside fun other _ below => elsewhere other (by omega)
    have after : retargetAll (Call.patch (extent front + 5) target).sets?
        (0 + extent front + (Idiom.jumpIfZero old).size) back = back :=
      retargetAll_outside fun other above _ => elsewhere other (by omega)
    rw [retargetAll_append, before, retargetAll, after, Nat.zero_add, Idiom.retarget, here,
      listing_split, listing_split, ← size_listing, Assembler.patch_jump]
    rfl
  · rw [if_neg (by simpa using accepted), retargetAll_outside]
    intro other _ _
    refine if_neg fun set => accepted ?_
    rw [set.1]
    exact set.2

theorem perform_emits {call : Call} (emitted : call.asks (extent idioms) [] = some idiom) :
    ((listing idioms).perform call).2 = listing (idioms ++ [idiom]) := by
  rw [listing_append, List.flatMap_singleton]
  cases call with
  | patch field target => cases emitted
  | jumpBack target =>
      cases emitted
      rw [Assembler.perform, reaches_eq, size_listing]
      by_cases accepted : Accepts (extent idioms + 5) target
      · rw [if_pos (decide_eq_true accepted), if_pos accepted, Assembler.emitJumpBack, size_listing]
        rfl
      · rw [if_neg (by simpa using accepted), if_neg accepted]
        rfl
  | _ =>
      cases emitted
      rfl

/-- A call gives jumps that are there already the target it sets, and appends the idiom it
asks for. -/
theorem perform_listing (call : Call) (patched : ∀ field ∈ call.patched?, IsField idioms field) :
    ((listing idioms).perform call).2 =
      listing (retargetAll call.sets? 0 idioms ++ (call.asks (extent idioms) []).toList) := by
  cases emitted : call.asks (extent idioms) [] with
  | none =>
      cases call with
      | patch field target =>
          rw [perform_patch (patched field rfl), Option.toList_none, List.append_nil]
      | _ => cases emitted
  | some idiom =>
      have unset (field : Nat) : call.sets? field = none := by
        cases call with
        | patch field target => cases emitted
        | _ => rfl
      rw [perform_emits emitted, retargetAll_outside fun field _ _ => unset field, Option.toList_some]

theorem perform_returns {call : Call}
    (returned : field ∈ ((listing idioms).perform call).1.field?) :
    call = .jumpIfZero ∧ field = extent idioms + 5 := by
  cases call with
  | jumpIfZero =>
      cases returned
      refine ⟨rfl, ?_⟩
      rw [Assembler.size_emit, size_listing]
      rfl
  | jumpBack target =>
      rw [Assembler.perform] at returned
      split at returned <;> cases returned
  | patch field target =>
      rw [Assembler.perform] at returned
      split at returned <;> cases returned
  | _ => cases returned

/-- The targets of later calls are what the idiom of a call lacks. -/
theorem retargetAll_asks (call : Call) (position : Nat) (later : List Call) :
    retargetAll (lastTarget? · later) position (call.asks position []).toList =
      (call.asks position later).toList := by
  cases call with
  | jumpIfZero =>
      rw [Call.asks, Call.asks, Option.toList_some, Option.toList_some, retargetAll, retargetAll,
        Idiom.retarget]
      cases lastTarget? (position + 5) later <;> rfl
  | _ => rfl

/-- After any calls, the idioms that were there have the last targets that the calls set, and
what the calls ask for stands behind them. -/
theorem performAll_listing {fields : List Nat} {calls : List Call}
    (known : ∀ field ∈ fields, IsField idioms field)
    (returned : PatchesReturned (listing idioms) fields calls) :
    (listing idioms).performAll calls =
      listing (retargetAll (lastTarget? · calls) 0 idioms ++ asked (listing idioms) calls) := by
  induction calls generalizing idioms fields with
  | nil =>
      have same : retargetAll (lastTarget? · []) 0 idioms = idioms :=
        retargetAll_outside fun _ _ _ => rfl
      rw [same, asked, List.append_nil, Assembler.performAll]
  | cons call rest ih =>
      obtain ⟨patched, later⟩ := returned
      have step := perform_listing call fun field found => known field (patched field found)
      have grown : ∀ field ∈ ((listing idioms).perform call).1.field?.toList ++ fields,
          IsField (retargetAll call.sets? 0 idioms ++ (call.asks (extent idioms) []).toList) field := by
        intro field member
        rcases List.mem_append.mp member with fresh | old
        · obtain ⟨rfl, rfl⟩ := perform_returns (Option.mem_toList.mp fresh)
          exact ⟨_, 0, [], rfl, by rw [extent_retargetAll]⟩
        · exact ((known field old).retargetAll _).append _
      rw [step] at later
      rw [Assembler.performAll, asked, step, ih grown later, retargetAll_append,
        retargetAll_retargetAll, extent_retargetAll, Nat.zero_add, retargetAll_asks, size_listing,
        List.append_assoc]
      rfl

end Calls

/-- Linear decoding of what any calls assemble succeeds to the last byte and gives what they
ask for, call by call. -/
theorem disassemble_performAll {calls : List Call} (returned : PatchesReturned .empty [] calls) :
    decodeAll (Assembler.empty.performAll calls).code.toList =
        some ((asked .empty calls).flatMap Idiom.instructions) ∧
      disassemble (Assembler.empty.performAll calls).code.toList = some (asked .empty calls) := by
  have start : listing [] = .empty := Assembler.emit_nil _
  rw [← start] at returned ⊢
  rw [performAll_listing (List.forall_mem_nil _) returned, retargetAll, List.nil_append]
  exact ⟨decodeAll_listing _, disassemble_listing _⟩

/-- Calls for every form of every idiom, around a jump that is given two targets. -/
def everyForm : List Call :=
  [.prologue, .addPointer (-4), .addPointer 400, .addPointer 0x100000000, .addCell 127, .addCell 128,
    .jumpIfZero, .storeCell (-1), .callWithCell 0x7f0000000010, .patch 51 0, .callIntoCell 7,
    .jumpBack 46, .patch 51 100, .epilogue]

theorem disassemble_performAll_every_form :
    PatchesReturned .empty [] everyForm ∧
      disassemble (Assembler.empty.performAll everyForm).code.toList = some
        [.prologue, .addPointer (-4), .addPointer 400, .addPointer 0x100000000, .addCell 127,
          .addCell 128, .jumpIfZero 45, .storeCell (-1), .callWithCell 0x7f0000000010,
          .callIntoCell 7, .jump (-54), .epilogue] := by
  have returned : PatchesReturned .empty [] everyForm := by decide +kernel
  have asks : asked .empty everyForm =
      [.prologue, .addPointer (-4), .addPointer 400, .addPointer 0x100000000, .addCell 127,
        .addCell 128, .jumpIfZero 45, .storeCell (-1), .callWithCell 0x7f0000000010,
        .callIntoCell 7, .jump (-54), .epilogue] := by decide +kernel
  rw [← asks]
  exact ⟨returned, (disassemble_performAll returned).2⟩

/-- A target that is too far away is not set.  The code is then that of another target, so no
way of reading it tells the two apart. -/
theorem disassemble_performAll_too_far :
    PatchesReturned .empty [] [.jumpIfZero, .patch 5 0x8000000000000000] ∧
      PatchesReturned .empty [] [.jumpIfZero, .patch 5 9] ∧
      Assembler.empty.performAll [.jumpIfZero, .patch 5 0x8000000000000000] =
        Assembler.empty.performAll [.jumpIfZero, .patch 5 9] ∧
      disassemble (Assembler.empty.performAll
        [.jumpIfZero, .patch 5 0x8000000000000000]).code.toList = some [.jumpIfZero 0] ∧
      distance 9 (some 9) = 0 ∧ distance 9 (some 0x8000000000000000) = -9 := by
  decide +kernel

end Tapewright.X86
