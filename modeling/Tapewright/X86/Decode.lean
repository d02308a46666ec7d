import Tapewright.X86.Instruction

namespace Tapewright.X86

/-! Reading instructions back from code bytes. -/

/-- The instruction at the start of some bytes, with the bytes after it. -/
def decode? : List UInt8 → Option (Instruction × List UInt8)
  | 0x55 :: rest => some (.pushRbp, rest)
  | 0x53 :: rest => some (.pushRbx, rest)
  | 0x5b :: rest => some (.popRbx, rest)
  | 0x5d :: rest => some (.popRbp, rest)
  | 0xc3 :: rest => some (.ret, rest)
  | 0x41 :: 0x54 :: rest => some (.pushR12, rest)
  | 0x41 :: 0x5c :: rest => some (.popR12, rest)
  | 0x48 :: 0x89 :: 0xe5 :: rest => some (.movRbpRsp, rest)
  | 0x48 :: 0x89 :: 0xfb :: rest => some (.movRbxRdi, rest)
  | 0x49 :: 0x89 :: 0xf4 :: rest => some (.movR12Rsi, rest)
  | 0x48 :: 0x83 :: 0xc3 :: value :: rest => some (.addRbxImm8 value.toInt8, rest)
  | 0x48 :: 0x81 :: 0xc3 :: b0 :: b1 :: b2 :: b3 :: rest =>
      some (.addRbxImm32 (word32 b0 b1 b2 b3).toInt32, rest)
  | 0x48 :: 0xb8 :: b0 :: b1 :: b2 :: b3 :: b4 :: b5 :: b6 :: b7 :: rest =>
      some (.movRaxImm64 (word64 (word32 b0 b1 b2 b3) (word32 b4 b5 b6 b7)), rest)
  | 0x48 :: 0x01 :: 0xc3 :: rest => some (.addRbxRax, rest)
  | 0x83 :: 0x03 :: value :: rest => some (.addCellImm8 value.toInt8, rest)
  | 0x83 :: 0x3b :: value :: rest => some (.cmpCellImm8 value.toInt8, rest)
  | 0x81 :: 0x03 :: b0 :: b1 :: b2 :: b3 :: rest =>
      some (.addCellImm32 (word32 b0 b1 b2 b3).toInt32, rest)
  | 0xc7 :: 0x03 :: b0 :: b1 :: b2 :: b3 :: rest =>
      some (.movCellImm32 (word32 b0 b1 b2 b3).toInt32, rest)
  | 0x4c :: 0x89 :: 0xe7 :: rest => some (.movRdiR12, rest)
  | 0x8b :: 0x33 :: rest => some (.movEsiCell, rest)
  | 0x89 :: 0x03 :: rest => some (.movCellEax, rest)
  | 0xff :: 0xd0 :: rest => some (.callRax, rest)
  | 0x0f :: 0x84 :: b0 :: b1 :: b2 :: b3 :: rest =>
      some (.jz (word32 b0 b1 b2 b3).toInt32, rest)
  | 0xe9 :: b0 :: b1 :: b2 :: b3 :: rest =>
      some (.jmp (word32 b0 b1 b2 b3).toInt32, rest)
  | _ => none

theorem int32_of_bytes32 (value : Int32) :
    (word32 (UInt8.ofNat value.toUInt32.toNat) (UInt8.ofNat (value.toUInt32.toNat / 256))
      (UInt8.ofNat (value.toUInt32.toNat / 65536))
      (UInt8.ofNat (value.toUInt32.toNat / 16777216))).toInt32 = value := by
  rw [word32_bytes32]
  exact Int32.toInt32_toUInt32 value

/-- Whatever follows an instruction, decoding gives the instruction back and stops right
behind it. -/
theorem decode?_encode_append (instruction : Instruction) (rest : List UInt8) :
    decode? (instruction.encode ++ rest) = some (instruction, rest) := by
  cases instruction with
  | addRbxImm32 value =>
      exact congrArg (fun value => some (Instruction.addRbxImm32 value, rest))
        (int32_of_bytes32 value)
  | addCellImm32 value =>
      exact congrArg (fun value => some (Instruction.addCellImm32 value, rest))
        (int32_of_bytes32 value)
  | movCellImm32 value =>
      exact congrArg (fun value => some (Instruction.movCellImm32 value, rest))
        (int32_of_bytes32 value)
  | jz displacement =>
      exact congrArg (fun value => some (Instruction.jz value, rest))
        (int32_of_bytes32 displacement)
  | jmp displacement =>
      exact congrArg (fun value => some (Instruction.jmp value, rest))
        (int32_of_bytes32 displacement)
  | movRaxImm64 value =>
      refine congrArg (fun value => some (Instruction.movRaxImm64 value, rest)) ?_
      rw [word32_bytes32, word32_bytes32, word64_halves]
  | _ => rfl

section Reading

variable {α β : Type}

/-- Read at most `fuel` items, one after another, up to the end of the source. -/
def readFrom (read? : List α → Option (β × List α)) :
    Nat → List α → Option (List β)
  | _, [] => some []
  | 0, _ :: _ => none
  | fuel + 1, source =>
      match read? source with
      | none => none
      | some (item, rest) => (readFrom read? fuel rest).map (item :: ·)

/-- The items that a source consists of, when every item takes up some of it. -/
def readAll (read? : List α → Option (β × List α)) (source : List α) :
    Option (List β) :=
  readFrom read? source.length source

variable {read? : List α → Option (β × List α)} {write : β → List α}

theorem readFrom_flatMap {fuel : Nat} (readBack : ∀ item rest, read? (write item ++ rest) = some (item, rest))
    (nonempty : ∀ item, write item ≠ []) (items : List β) (enough : items.length ≤ fuel) :
    readFrom read? fuel (items.flatMap write) = some items := by
  induction items generalizing fuel with
  | nil => cases fuel <;> rfl
  | cons item rest ih =>
      cases fuel with
      | zero => simp at enough
      | succ fuel =>
          have tail : readFrom read? fuel (rest.flatMap write) = some rest :=
            ih (by simpa using enough)
          have read := readBack item (rest.flatMap write)
          cases source : write item ++ rest.flatMap write with
          | nil => exact absurd (List.append_eq_nil_iff.mp source).1 (nonempty item)
          | cons first others =>
              rw [source] at read
              simp only [List.flatMap_cons, source, readFrom, read, tail, Option.map_some]

/-- Items that read back one by one read back all together. -/
theorem readAll_flatMap (readBack : ∀ item rest, read? (write item ++ rest) = some (item, rest))
    (nonempty : ∀ item, write item ≠ []) (items : List β) :
    readAll read? (items.flatMap write) = some items := by
  apply readFrom_flatMap readBack nonempty
  induction items with
  | nil => exact Nat.le_refl 0
  | cons item rest ih =>
      have positive := List.length_pos_iff.mpr (nonempty item)
      simp only [List.flatMap_cons, List.length_append, List.length_cons]
      omega

end Reading

/-- The instructions that bytes consist of. -/
def decodeAll (bytes : List UInt8) : Option (List Instruction) :=
  readAll decode? bytes

theorem Instruction.encode_ne_nil (instruction : Instruction) : instruction.encode ≠ [] := by
  cases instruction <;> simp [encode]

theorem decodeAll_encodeAll (instructions : List Instruction) :
    decodeAll (encodeAll instructions) = some instructions :=
  readAll_flatMap decode?_encode_append Instruction.encode_ne_nil instructions

end Tapewright.X86
