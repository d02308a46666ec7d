namespace Tapewright.X86

/-! Little-endian words.

Immediates, displacements and memory operands all store their least significant
byte first.  Each width has a writer and a reader, and reading what was written
gives the word back.
-/

def bytes32 (word : UInt32) : List UInt8 :=
  [UInt8.ofNat word.toNat, UInt8.ofNat (word.toNat / 256), UInt8.ofNat (word.toNat / 65536),
    UInt8.ofNat (word.toNat / 16777216)]

def bytes64 (word : UInt64) : List UInt8 :=
  bytes32 (UInt32.ofNat word.toNat) ++ bytes32 (UInt32.ofNat (word.toNat / 4294967296))

def word32 (b0 b1 b2 b3 : UInt8) : UInt32 :=
  UInt32.ofNat (b0.toNat + 256 * b1.toNat + 65536 * b2.toNat + 16777216 * b3.toNat)

def word64 (low high : UInt32) : UInt64 :=
  UInt64.ofNat (low.toNat + 4294967296 * high.toNat)

@[simp] theorem bytes32_length (word : UInt32) : (bytes32 word).length = 4 := rfl

@[simp] theorem bytes64_length (word : UInt64) : (bytes64 word).length = 8 := rfl

theorem word32_bytes32 (word : UInt32) :
    word32 (UInt8.ofNat word.toNat) (UInt8.ofNat (word.toNat / 256))
      (UInt8.ofNat (word.toNat / 65536)) (UInt8.ofNat (word.toNat / 16777216)) = word := by
  apply UInt32.toNat_inj.mp
  have bound := word.toNat_lt
  simp only [word32, UInt32.toNat_ofNat', UInt8.toNat_ofNat']
  omega

theorem word64_halves (word : UInt64) :
    word64 (UInt32.ofNat word.toNat) (UInt32.ofNat (word.toNat / 4294967296)) = word := by
  apply UInt64.toNat_inj.mp
  have bound := word.toNat_lt
  simp only [word64, UInt64.toNat_ofNat', UInt32.toNat_ofNat']
  omega

end Tapewright.X86
