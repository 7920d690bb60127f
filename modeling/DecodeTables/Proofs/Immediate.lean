import DecodeTables.Immediate
import DecodeTables.Proofs.Word
import Mathlib.Data.Set.Function

/-!
# Codecs of immediates

`Immediate.valueBit` gives the bit of the value that a bit of the word holds. Both directions of a
codec are read off it: `getLsbD_encode` says what encoding puts into a word,
`getLsbD_ofInt_of_decode?` what decoding takes out. From these two follow `encode_of_decode?` (every
word comes back in the bits of its immediate) and `decode?_encode` (every value that fits comes
back). Together they make a codec a one-to-one correspondence of values and words (`codec_exact`).
-/

namespace DecodeTables.Immediate

/-- The bit of the value that is held by bit `k` of the word. -/
def valueBit : Immediate → Nat → Nat
  | i, k | fence, k => k - 20
  | s, k => if k < 12 then k - 7 else k - 20
  | b, k => if k = 31 then 12 else if k = 7 then 11 else if k < 12 then k - 7 else k - 20
  | u, k | absent, k => k
  | j, k => if k = 31 then 20 else if k = 20 then 11 else if k < 20 then k else k - 20

/-- Whether bit `k` of the word belongs to the immediate. -/
theorem getLsbD_bits (layout : Immediate) (k : Nat) :
    layout.bits.getLsbD k = match layout with
      | i | fence => decide (20 ≤ k ∧ k ≤ 31)
      | s | b => decide (25 ≤ k ∧ k ≤ 31) || decide (7 ≤ k ∧ k ≤ 11)
      | u | j => decide (12 ≤ k ∧ k ≤ 31)
      | absent => false := by
  have high : (0xfff00000 : Word) = Word.span 31 20 := by decide
  have split : (0xfe000f80 : Word) = Word.span 31 25 ||| Word.span 11 7 := by decide
  have upper : (0xfffff000 : Word) = Word.span 31 12 := by decide
  have bound : 31 < 32 := by decide
  cases layout with
  | i | fence => simp only [bits, high, Word.getLsbD_span k (by decide : 20 ≤ 31) bound]
  | s | b =>
    simp only [bits, split, BitVec.getLsbD_or, Word.getLsbD_span k (by decide : 25 ≤ 31) bound,
      Word.getLsbD_span k (by decide : 7 ≤ 11) (by decide : 11 < 32)]
  | u | j => simp only [bits, upper, Word.getLsbD_span k (by decide : 12 ≤ 31) bound]
  | absent => exact BitVec.getLsbD_zero

/-- Encoding puts each bit of the immediate where `valueBit` has it, and no other bit. -/
theorem getLsbD_encode (layout : Immediate) (value : Int) (k : Nat) :
    (layout.encode value).getLsbD k =
      (layout.bits.getLsbD k && (BitVec.ofInt 32 value).getLsbD (layout.valueBit k)) := by
  rw [getLsbD_bits]
  cases layout <;>
    simp only [encode, valueBit, BitVec.getLsbD_append, BitVec.getLsbD_extractLsb',
      BitVec.getLsbD_zero, Bool.false_and]
  case i => grind
  case s => grind
  case b => grind
  case u => grind
  case j => grind
  case fence => grind
  case absent => exact BitVec.getLsbD_zero

/-- A signed number keeps the bits of the word that it was read from. -/
theorem getLsbD_ofInt_toInt {n : Nat} (x : BitVec n) {p : Nat} (low : p < n) (bound : p < 32) :
    (BitVec.ofInt 32 x.toInt).getLsbD p = x.getLsbD p := by
  rw [show BitVec.ofInt 32 x.toInt = x.signExtend 32 from rfl, BitVec.getLsbD_signExtend]
  simp [low, bound]

/-- So does an unsigned one. -/
theorem getLsbD_ofInt_toNat {n : Nat} (x : BitVec n) {p : Nat} (bound : p < 32) :
    (BitVec.ofInt 32 (x.toNat : Int)).getLsbD p = x.getLsbD p := by
  rw [BitVec.ofInt_natCast, BitVec.getLsbD_ofNat]
  simp [bound, BitVec.getLsbD]

/-- Decoding takes each bit of the value from where `valueBit` has it. -/
theorem getLsbD_ofInt_of_decode? {layout : Immediate} {w : Word} {value : Int}
    (decoded : layout.decode? w = some value) {k : Nat} (own : layout.bits.getLsbD k = true) :
    (BitVec.ofInt 32 value).getLsbD (layout.valueBit k) = w.getLsbD k := by
  rw [getLsbD_bits] at own
  cases layout <;> simp only [decode?, Option.some.injEq, reduceCtorEq] at decoded own <;>
    subst decoded <;> simp only [valueBit, Bool.or_eq_true, decide_eq_true_eq] at own ⊢
  case i =>
    rw [getLsbD_ofInt_toInt _ (by omega) (by omega), BitVec.getLsbD_extractLsb']
    grind
  case s =>
    rw [getLsbD_ofInt_toInt _ (by grind) (by grind)]
    simp only [BitVec.getLsbD_append, BitVec.getLsbD_extractLsb']
    grind
  case b =>
    rw [getLsbD_ofInt_toInt _ (by grind) (by grind)]
    simp only [BitVec.getLsbD_append, BitVec.getLsbD_extractLsb']
    grind
  case u =>
    rw [getLsbD_ofInt_toNat _ (by omega)]
    simp only [BitVec.getLsbD_append, BitVec.getLsbD_extractLsb']
    grind
  case j =>
    rw [getLsbD_ofInt_toInt _ (by grind) (by grind)]
    simp only [BitVec.getLsbD_append, BitVec.getLsbD_extractLsb']
    grind
  case fence =>
    rw [getLsbD_ofInt_toNat _ (by omega), BitVec.getLsbD_extractLsb']
    grind

/-! ## There and back -/

/-- A word that is decoded and encoded again keeps the bits of its immediate and loses the others. -/
theorem encode_of_decode? {layout : Immediate} {w : Word} {value : Int}
    (decoded : layout.decode? w = some value) : layout.encode value = w &&& layout.bits := by
  refine BitVec.eq_of_getLsbD_eq fun k _ => ?_
  rw [getLsbD_encode, BitVec.getLsbD_and]
  cases own : layout.bits.getLsbD k with
  | false => simp
  | true => rw [getLsbD_ofInt_of_decode? decoded own, Bool.true_and, Bool.and_true]

/-- What is decoded fits. -/
theorem fits_of_decode? {layout : Immediate} {w : Word} {value : Int}
    (decoded : layout.decode? w = some value) : layout.fits value = true := by
  have signed {n : Nat} (x : BitVec n) : -2 ^ (n - 1) ≤ x.toInt ∧ x.toInt < 2 ^ (n - 1) :=
    ⟨BitVec.le_toInt x, BitVec.toInt_lt⟩
  have unsigned {n : Nat} (x : BitVec n) : x.toNat < 2 ^ n := x.isLt
  cases layout <;> simp only [decode?, Option.some.injEq, reduceCtorEq] at decoded <;>
    subst decoded <;> simp only [fits, Bool.and_eq_true, decide_eq_true_eq, beq_iff_eq]
  case i =>
    have range := signed (w.extractLsb' 20 12)
    omega
  case s =>
    have range := signed (w.extractLsb' 25 7 ++ w.extractLsb' 7 5)
    omega
  case b =>
    rw [BitVec.toInt_append_zero]
    have range := signed (w.extractLsb' 31 1 ++ w.extractLsb' 7 1 ++ w.extractLsb' 25 6 ++
      w.extractLsb' 8 4)
    omega
  case u =>
    rw [BitVec.toNat_append, BitVec.toNat_ofNat, Nat.zero_mod, Nat.or_zero, Nat.shiftLeft_eq]
    have range := unsigned (w.extractLsb' 12 20)
    omega
  case j =>
    rw [BitVec.toInt_append_zero]
    have range := signed (w.extractLsb' 31 1 ++ w.extractLsb' 12 8 ++ w.extractLsb' 20 1 ++
      w.extractLsb' 21 10)
    omega
  case fence =>
    have range := unsigned (w.extractLsb' 20 12)
    omega

/-- A word of at most 32 bits that holds the low bits of a value is the value at its width. -/
theorem eq_ofInt_of_getLsbD {n : Nat} {x : BitVec n} {value : Int} (le : n ≤ 32)
    (low : ∀ k < n, x.getLsbD k = (BitVec.ofInt 32 value).getLsbD k) : x = BitVec.ofInt n value := by
  have narrow : (BitVec.ofInt 32 value).setWidth n = BitVec.ofInt n value := by
    apply BitVec.eq_of_toInt_eq
    rw [← BitVec.signExtend_eq_setWidth_of_le _ le, BitVec.toInt_signExtend, BitVec.toInt_ofInt,
      BitVec.toInt_ofInt, Nat.min_eq_left le, Int.bmod_bmod_of_dvd (Nat.pow_dvd_pow 2 le)]
  rw [← narrow]
  refine BitVec.eq_of_getLsbD_eq fun k bound => ?_
  rw [low k bound, BitVec.getLsbD_setWidth, decide_eq_true bound, Bool.true_and]

/-- A multiple of a power of two has no lower bits. -/
theorem getLsbD_ofInt_of_dvd {n k : Nat} {value : Int} (multiple : ((2 ^ n : Nat) : Int) ∣ value)
    (low : k < n) : (BitVec.ofInt 32 value).getLsbD k = false := by
  obtain ⟨quotient, rfl⟩ := multiple
  have power : BitVec.ofInt 32 ((2 ^ n : Nat) : Int) = BitVec.twoPow 32 n := by
    apply BitVec.eq_of_toNat_eq
    rw [BitVec.ofInt_natCast, BitVec.toNat_ofNat, BitVec.toNat_twoPow]
  rw [BitVec.ofInt_mul, power, BitVec.twoPow_mul_eq_shiftLeft, BitVec.getLsbD_shiftLeft]
  simp [low]

section

variable {n : Nat} {x : BitVec n} {value : Int} (le : n ≤ 32)
  (low : ∀ k < n, x.getLsbD k = (BitVec.ofInt 32 value).getLsbD k)
include le low

/-- A word that holds the low bits of a value is this signed number, if the value is in range. -/
theorem toInt_of_getLsbD (positive : 0 < n) (least : -2 ^ (n - 1) ≤ value)
    (most : value < 2 ^ (n - 1)) : x.toInt = value := by
  rw [eq_ofInt_of_getLsbD le low, BitVec.toInt_ofInt_eq_self positive least most]

/-- So it is for unsigned numbers. -/
theorem toNat_of_getLsbD (least : 0 ≤ value) (most : value < 2 ^ n) : (x.toNat : Int) = value := by
  rw [eq_ofInt_of_getLsbD le low, BitVec.toNat_ofInt,
    Int.emod_eq_of_lt least (by exact_mod_cast most), Int.toNat_of_nonneg least]

end

/-- A value that fits is decoded from the word that it was encoded in. -/
theorem decode?_encode {layout : Immediate} {value : Int} (fits : layout.fits value = true) :
    layout.decode? (layout.encode value) = some value := by
  have bit := getLsbD_encode layout value
  simp only [getLsbD_bits] at bit
  generalize layout.encode value = w at bit
  -- In each layout the slices that are read make up the low bits of the value.
  cases layout <;>
    simp only [Immediate.fits, Bool.and_eq_true, decide_eq_true_eq, beq_iff_eq,
      Bool.false_eq_true] at fits <;>
    simp only [valueBit] at bit <;> simp only [decode?, Option.some.injEq]
  case i =>
    refine toInt_of_getLsbD (by decide) (fun k low => ?_) (by decide) (by omega) (by omega)
    rw [BitVec.getLsbD_extractLsb', bit]
    grind
  case s =>
    refine toInt_of_getLsbD (by decide) (fun k low => ?_) (by decide) (by omega) (by omega)
    simp only [BitVec.getLsbD_append, BitVec.getLsbD_extractLsb', bit]
    grind
  case b =>
    have even : (BitVec.ofInt 32 value).getLsbD 0 = false :=
      getLsbD_ofInt_of_dvd (n := 1) (by omega) (by decide)
    refine toInt_of_getLsbD (by decide) (fun k low => ?_) (by decide) (by omega) (by omega)
    simp only [BitVec.getLsbD_append, BitVec.getLsbD_extractLsb', bit, BitVec.getLsbD_zero]
    clear bit fits
    grind
  case u =>
    have low (k : Nat) (small : k < 12) : (BitVec.ofInt 32 value).getLsbD k = false :=
      getLsbD_ofInt_of_dvd (n := 12) (by omega) small
    refine toNat_of_getLsbD (by decide) (fun k _ => ?_) (by omega) (by omega)
    simp only [BitVec.getLsbD_append, BitVec.getLsbD_extractLsb', bit, BitVec.getLsbD_zero]
    grind
  case j =>
    have even : (BitVec.ofInt 32 value).getLsbD 0 = false :=
      getLsbD_ofInt_of_dvd (n := 1) (by omega) (by decide)
    refine toInt_of_getLsbD (by decide) (fun k low => ?_) (by decide) (by omega) (by omega)
    simp only [BitVec.getLsbD_append, BitVec.getLsbD_extractLsb', bit, BitVec.getLsbD_zero]
    clear bit fits
    grind
  case fence =>
    refine toNat_of_getLsbD (by decide) (fun k low => ?_) (by omega) (by omega)
    rw [BitVec.getLsbD_extractLsb', bit]
    grind

/-- Decoding reads no bit outside those of the immediate. -/
theorem decode?_congr {layout : Immediate} {w w' : Word}
    (same : w &&& layout.bits = w' &&& layout.bits) : layout.decode? w = layout.decode? w' := by
  cases decoded : layout.decode? w with
  | none => cases layout <;> simp_all [decode?]
  | some value =>
    have fits := fits_of_decode? decoded
    cases decoded' : layout.decode? w' with
    | none => cases layout <;> simp_all [decode?]
    | some value' =>
      have back := decode?_encode fits
      rw [encode_of_decode? decoded, same, ← encode_of_decode? decoded',
        decode?_encode (fits_of_decode? decoded')] at back
      exact back.symm

/-- Encoding sets no bit outside those of the immediate, whether the value fits or not. -/
theorem encode_within (layout : Immediate) (value : Int) :
    layout.encode value &&& layout.bits = layout.encode value := by
  rw [Word.and_eq_left_iff]
  intro k set
  rw [getLsbD_encode, Bool.and_eq_true] at set
  exact set.1

/-- The values that fit are those that come back. -/
theorem fits_iff {layout : Immediate} {value : Int} :
    layout.fits value = true ↔ layout.decode? (layout.encode value) = some value :=
  ⟨decode?_encode, fits_of_decode?⟩

/-- A word that holds the bits of a value that fits is decoded to it. -/
theorem decode?_of_getLsbD {layout : Immediate} {w : Word} {value : Int}
    (fits : layout.fits value = true)
    (held : ∀ k, layout.bits.getLsbD k = true →
      w.getLsbD k = (BitVec.ofInt 32 value).getLsbD (layout.valueBit k)) :
    layout.decode? w = some value := by
  have same : w &&& layout.bits = layout.encode value &&& layout.bits :=
    Word.and_eq_and_iff.mpr fun k own => by rw [getLsbD_encode, own, Bool.true_and, held k own]
  rw [decode?_congr same, decode?_encode fits]

/-- Every layout but the absent one reads some value from every word. -/
theorem isSome_decode? (layout : Immediate) (w : Word) :
    (layout.decode? w).isSome = true ↔ layout ≠ absent := by
  cases layout <;> simp [decode?]

/-- Zero fits every layout but the absent one. -/
theorem fits_zero {layout : Immediate} (present : layout ≠ absent) : layout.fits 0 = true := by
  cases layout <;> first | rfl | exact absurd rfl present

/-! ## Values and words -/

/-- The values that fit a layout. -/
def fitting (layout : Immediate) : Set Int := {value | layout.fits value = true}

/-- The words with no bit outside those of the immediate. -/
def within (layout : Immediate) : Set Word := {w | w &&& layout.bits = w}

/-- Values that fit are numbers of 64 bits. -/
theorem bounds_of_fits {layout : Immediate} {value : Int} (fits : layout.fits value = true) :
    -2 ^ 63 ≤ value ∧ value < 2 ^ 63 := by
  cases layout <;>
    simp only [Immediate.fits, Bool.and_eq_true, decide_eq_true_eq, beq_iff_eq,
      Bool.false_eq_true] at fits <;>
    omega

/-- Encoding a value that fits and decoding a word of the immediate are each other's inverse. -/
theorem encode_eq_iff {layout : Immediate} {value : Int} {w : Word} :
    layout.fits value = true ∧ layout.encode value = w ↔
      w &&& layout.bits = w ∧ layout.decode? w = some value := by
  constructor
  · rintro ⟨fits, rfl⟩
    exact ⟨encode_within layout value, decode?_encode fits⟩
  · rintro ⟨inside, decoded⟩
    exact ⟨fits_of_decode? decoded, (encode_of_decode? decoded).trans inside⟩

/-- Encoding pairs the values that fit with the words of the immediate, one to one. -/
theorem bijOn_encode {layout : Immediate} (present : layout ≠ absent) :
    Set.BijOn layout.encode layout.fitting layout.within := by
  refine ⟨fun value _ => encode_within layout value, fun value fits value' fits' same => ?_,
    fun w inside => ?_⟩
  · have back := decode?_encode fits
    rw [same, decode?_encode fits', Option.some.injEq] at back
    exact back.symm
  · obtain ⟨value, decoded⟩ := Option.isSome_iff_exists.mp ((isSome_decode? layout w).mpr present)
    exact ⟨value, encode_eq_iff.mpr ⟨inside, decoded⟩⟩

/-- What fits a layout is what comes back. Encoding sets no other bits than those of the immediate,
decoding reads no others, and whatever is decoded fits and is put back where it was. So the values
that fit and the words of the immediate stand for each other one to one, unless there is no
immediate. -/
theorem codec_exact (layout : Immediate) :
    (∀ value : Int, layout.fits value = true ↔
      layout.decode? (layout.encode value) = some value) ∧
    (∀ value : Int, layout.encode value &&& ~~~layout.bits = 0) ∧
    (layout ≠ absent → ∀ w : Word, ∃ value, layout.decode? w = some value ∧
      layout.encode value = w &&& layout.bits ∧ layout.fits value = true) ∧
    (∀ w : Word, layout.decode? w = layout.decode? (w &&& layout.bits)) ∧
    (layout ≠ absent → Set.BijOn layout.encode layout.fitting layout.within) ∧
    (∀ (value : Int) (w : Word), value ∈ layout.fitting ∧ layout.encode value = w ↔
      w ∈ layout.within ∧ layout.decode? w = some value) ∧
    ∀ value ∈ layout.fitting, -2 ^ 63 ≤ value ∧ value < 2 ^ 63 := by
  refine ⟨fun _ => fits_iff, fun value => ?_, fun present w => ?_, fun w => ?_, bijOn_encode,
    fun _ _ => encode_eq_iff, fun _ => bounds_of_fits⟩
  · rw [← encode_within, BitVec.and_assoc, BitVec.and_not_self]
    exact BitVec.and_zero
  · obtain ⟨value, decoded⟩ := Option.isSome_iff_exists.mp ((isSome_decode? layout w).mpr present)
    exact ⟨value, decoded, encode_of_decode? decoded, fits_of_decode? decoded⟩
  · exact decode?_congr (by rw [BitVec.and_assoc, BitVec.and_self])

/-- A branch offset of minus eight is spread over three parts of the word and comes back from
them. -/
theorem codec_exact_branch :
    b.decode? (b.encode (-8)) = some (-8) ∧ ∃ value, b.decode? 0xfe418ce3 = some value ∧
      b.encode value = 0xfe000c80 ∧ b.fits value = true := by
  obtain ⟨back, -, again, -⟩ := codec_exact b
  obtain ⟨value, decoded, encoded, fits⟩ := again (by decide) 0xfe418ce3
  exact ⟨(back (-8)).mp (by decide), value, decoded, encoded, fits⟩

end DecodeTables.Immediate
