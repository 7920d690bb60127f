/-!
# Instruction words

A `Word` is one 32-bit instruction. Its low seven bits are its opcode, and `Word.ones` counts its
set bits, which is how specific it is when it is read as a mask.
-/

namespace DecodeTables

/-- A 32-bit instruction, mask or bit pattern. -/
abbrev Word := BitVec 32

/-- Bits in a word, and characters in an encoding. -/
def wordBits : Nat := 32

/-- Low bits of a word that hold its opcode. -/
def opcodeBits : Nat := 7

/-- Number of opcode values. -/
def opcodeCount : Nat := 128

/-- Number of register indices. -/
def registerCount : Nat := 32

namespace Word

/-- The bits that hold the opcode. -/
def opcodeMask : Word := 0x7f

/-- The bits of a register index, before it is shifted to its slot. -/
def registerMask : Word := 0x1f

/-- The opcode of a word, below `opcodeCount`. -/
def opcode (w : Word) : Nat := (w &&& opcodeMask).toNat

/-- The number of bits that are set. -/
def ones (w : Word) : Nat := (List.range 32).countP fun i => w.getLsbD i

/-- Ones in the bits from `lo` up to and including `hi`. -/
def span (hi lo : Nat) : Word := (BitVec.allOnes (hi - lo + 1)).setWidth 32 <<< lo

/-- Two masks that split all bits between them are complements. -/
theorem eq_not_of_split {n : Nat} {a b : BitVec n} (disjoint : a &&& b = 0)
    (cover : a ||| b = BitVec.allOnes n) : a = ~~~b := by
  ext i hi
  have hd := congrArg (fun w => w.getLsbD i) disjoint
  have hc := congrArg (fun w => w.getLsbD i) cover
  simp [hi] at hd hc ⊢
  cases ha : a[i] <;> cases hb : b[i] <;> simp_all

end Word

end DecodeTables
