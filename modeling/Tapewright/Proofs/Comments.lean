import Tapewright.Proofs.Insertions
import Tapewright.Program

namespace Tapewright

/-! Comments.

A text is scanned byte by byte, but it means what its characters mean: each of the eight commands is
one byte below 128, and no other character has such a byte but its own.  What is put in between the
commands is therefore never seen.
-/

/-- The unit op that a character stands for, if it is one of the eight commands. -/
def unitOp? : Char → Option Op
  | '>' => some ⟨.shiftRight, 1⟩
  | '<' => some ⟨.shiftLeft, 1⟩
  | '+' => some ⟨.increment, 1⟩
  | '-' => some ⟨.decrement, 1⟩
  | '[' => some ⟨.loopStart, 1⟩
  | ']' => some ⟨.loopEnd, 1⟩
  | ',' => some ⟨.input, 1⟩
  | '.' => some ⟨.output, 1⟩
  | _ => none

/-- A character that is none of the eight commands. -/
def IsComment (char : Char) : Prop :=
  char ∉ ['>', '<', '+', '-', '[', ']', ',', '.']

theorem unitOp?_eq_none_iff {char : Char} : unitOp? char = none ↔ IsComment char := by
  unfold unitOp? IsComment
  split <;> simp_all

theorem IsComment.of_wide {char : Char} (wide : 128 ≤ char.toNat) : IsComment char := by
  intro member
  have low : ['>', '<', '+', '-', '[', ']', ',', '.'].all (·.toNat < 128) = true := rfl
  have narrow : char.toNat < 128 := of_decide_eq_true (List.all_eq_true.mp low char member)
  exact Nat.not_lt.mpr wide narrow

namespace Command

theorem ofByte?_of_high {byte : UInt8} (high : 128 ≤ byte.toNat) : ofByte? byte = none := by
  have other (value : UInt8) (low : value.toNat < 128) : byte ≠ value := by
    rintro rfl
    omega
  simp [ofByte?, other]

/-- Below 128 a character is its byte, and the command that the byte is read as has its op. -/
theorem op_of_low {char : Char} (low : char.toNat < 128) :
    (ofByte? (UInt8.ofNat char.toNat)).map op = unitOp? char := by
  have same : ∀ value < 128, (ofByte? (UInt8.ofNat value)).map op = unitOp? (Char.ofNat value) := by
    decide
  simpa using same char.toNat low

end Command

namespace Source

/-- Every byte of a character that takes more than one is above the range of the commands. -/
theorem high_of_mem_encode {char : Char} (wide : 128 ≤ char.toNat) {byte : UInt8}
    (member : byte ∈ String.utf8EncodeChar char) : 128 ≤ byte.toNat := by
  have value : char.val.toNat = char.toNat := rfl
  simp only [String.utf8EncodeChar, value] at member
  split at member
  · omega
  · split at member
    · simp only [List.mem_cons, List.not_mem_nil, or_false] at member
      rcases member with rfl | rfl <;> rw [UInt8.toNat_ofNat'] <;> omega
    · split at member
      · simp only [List.mem_cons, List.not_mem_nil, or_false] at member
        rcases member with rfl | rfl | rfl <;> rw [UInt8.toNat_ofNat'] <;> omega
      · simp only [List.mem_cons, List.not_mem_nil, or_false] at member
        rcases member with rfl | rfl | rfl | rfl <;> rw [UInt8.toNat_ofNat'] <;> omega

/-- The bytes of a character hold its op if it is a command, and else none. -/
theorem ops_encode (char : Char) :
    opsOfBytes (String.utf8EncodeChar char) = (unitOp? char).toList := by
  by_cases low : char.toNat < 128
  · have single : String.utf8EncodeChar char = [UInt8.ofNat char.toNat] :=
      if_pos (Nat.le_of_lt_succ low)
    rw [opsOfBytes, single, ← Command.op_of_low low]
    cases read : Command.ofByte? (UInt8.ofNat char.toNat) <;> simp [read]
  · have wide : 128 ≤ char.toNat := Nat.le_of_not_lt low
    rw [opsOfBytes, unitOp?_eq_none_iff.mpr (.of_wide wide), List.filterMap_eq_nil_iff.mpr]
    · rfl
    · intro byte member
      exact Command.ofByte?_of_high (high_of_mem_encode wide member)

theorem opsOfBytes_append (first second : List UInt8) :
    opsOfBytes (first ++ second) = opsOfBytes first ++ opsOfBytes second := by
  rw [opsOfBytes, List.filterMap_append, List.map_append]
  rfl

theorem toList_toUTF8 (text : String) :
    text.toUTF8.data.toList = text.toList.flatMap String.utf8EncodeChar := by
  have bytes : (String.ofList text.toList).toUTF8.data.toList =
      text.toList.flatMap String.utf8EncodeChar := by
    rw [String.toUTF8_eq_toByteArray, String.toByteArray_ofList, List.utf8Encode,
      List.data_toByteArray]
  rwa [String.ofList_toList] at bytes

theorem ops_eq_filterMap (text : String) : ops text = text.toList.filterMap unitOp? := by
  rw [ops, toList_toUTF8]
  induction text.toList with
  | nil => rfl
  | cons char rest ih =>
      rw [List.flatMap_cons, opsOfBytes_append, ops_encode, ih, List.filterMap_cons]
      cases unitOp? char <;> rfl

end Source

/-- The ops of a text are its commands, one unit op for each that occurs and in the same order,
whatever other characters stand between them.  Putting in more of those changes neither the program
that the text compiles to nor the error that it is refused with. -/
theorem comments_transparent (text : String) :
    Source.ops text = text.toList.filterMap unitOp? ∧
    ∀ commented : String, Inserted IsComment text.toList commented.toList →
      ∀ optimize, Program.compile optimize commented = Program.compile optimize text := by
  refine ⟨Source.ops_eq_filterMap text, fun commented inserted optimize => ?_⟩
  have same : Source.ops commented = Source.ops text := by
    rw [Source.ops_eq_filterMap, Source.ops_eq_filterMap, inserted.filterMap_eq]
    intro char comment
    exact unitOp?_eq_none_iff.mpr comment
  rw [Program.compile, Program.compile, same]

/-- A letter of two bytes, a sign of four and a line end, put in around and between the eight
commands. -/
theorem comments_transparent_wide :
    Source.ops "é>+[😀,.-<]\n" = [⟨.shiftRight, 1⟩, ⟨.increment, 1⟩, ⟨.loopStart, 1⟩, ⟨.input, 1⟩,
        ⟨.output, 1⟩, ⟨.decrement, 1⟩, ⟨.shiftLeft, 1⟩, ⟨.loopEnd, 1⟩] ∧
      Inserted IsComment ">+[,.-<]".toList "é>+[😀,.-<]\n".toList ∧
      ∀ optimize, Program.compile optimize "é>+[😀,.-<]\n" = Program.compile optimize ">+[,.-<]" := by
  have comments : IsComment 'é' ∧ IsComment '😀' ∧ IsComment '\n' := by
    simp [IsComment]
  obtain ⟨letter, sign, lineEnd⟩ := comments
  have inserted : Inserted IsComment ">+[,.-<]".toList "é>+[😀,.-<]\n".toList := by
    simp only [String.reduceToList]
    exact .put letter (.keep (.keep (.keep (.put sign
      (.keep (.keep (.keep (.keep (.keep (.put lineEnd .nil))))))))))
  refine ⟨?_, inserted, (comments_transparent ">+[,.-<]").2 _ inserted⟩
  rw [(comments_transparent "é>+[😀,.-<]\n").1]
  rfl

end Tapewright
