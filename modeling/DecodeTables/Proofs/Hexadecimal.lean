import DecodeTables.Cause
import DecodeTables.Proofs.Emitted.Numeral
import Mathlib.Data.List.DropRight
import Mathlib.Data.List.Forall2
import Mathlib.Data.Nat.Digits.Defs
import Mathlib.Tactic.Ring

/-!
# Reading hexadecimal words

What a text has to be for `Hex.parse?` to read a word in it, stage by stage: blanks at the ends
(`Trimmed`), one mark (`Hex.Unmarked`), underscores, and a numeral (`Hex.Numeral`), whose value is that
of its digits by their places. `Hex.Denotes` puts the stages together, and `Hex.parse_exact` finds
that just the words among the values are read. Every way of writing a word is read back, since the
readers of texts and of emitted sources agree on digits (`Hex.digits?_eq`).
-/

namespace DecodeTables.Text

/-! ## Blanks -/

/-- What is left of a text without the blanks at its ends. -/
structure Trimmed (text core : List Char) : Prop where
  split : ∃ front back, text = front ++ core ++ back ∧
    (∀ c ∈ front, isBlank c = true) ∧ ∀ c ∈ back, isBlank c = true
  head : ∀ c ∈ core.head?, isBlank c = false
  last : ∀ c ∈ core.getLast?, isBlank c = false

variable {text core front rest : List Char}

theorem trim_eq_rdropWhile : trim text = (text.dropWhile isBlank).rdropWhile isBlank := rfl

theorem dropWhile_blanks (blank : ∀ c ∈ front, isBlank c = true)
    (stop : ∀ c ∈ rest.head?, isBlank c = false) : (front ++ rest).dropWhile isBlank = rest := by
  rw [List.dropWhile_append_of_pos blank]
  cases rest with
  | nil => rfl
  | cons c _ => rw [List.dropWhile_cons_of_neg (by rw [stop c rfl]; decide)]

theorem trimmed_trim (text : List Char) : Trimmed text (trim text) where
  split := by
    refine ⟨text.takeWhile isBlank, (text.dropWhile isBlank).rtakeWhile isBlank, ?_,
      fun c => List.mem_takeWhile_imp, fun c => List.mem_rtakeWhile_imp⟩
    rw [trim_eq_rdropWhile, List.append_assoc, List.rdropWhile_append_rtakeWhile,
      List.takeWhile_append_dropWhile]
  head c first := by
    obtain ⟨rest, whole⟩ := List.rdropWhile_prefix isBlank (text.dropWhile isBlank)
    have outer : (text.dropWhile isBlank).head? = some c := by
      rw [← whole, List.head?_append, ← trim_eq_rdropWhile, first, Option.some_or]
    have stopped := List.head?_dropWhile_not isBlank text
    rw [outer] at stopped
    exact stopped
  last c final := by
    have nonempty : trim text ≠ [] := by
      intro empty
      rw [empty] at final
      cases final
    have stopped := List.rdropWhile_last_not isBlank (text.dropWhile isBlank) nonempty
    rw [List.getLast?_eq_some_getLast nonempty] at final
    rw [← Option.some.inj final]
    exact Bool.eq_false_iff.mpr stopped

theorem trimmed_iff : Trimmed text core ↔ core = trim text := by
  constructor
  · intro trimmed
    obtain ⟨⟨front, back, rfl, inFront, inBack⟩, head, last⟩ := trimmed
    rw [trim, List.append_assoc]
    cases core with
    | nil =>
      rw [List.nil_append, List.dropWhile_eq_nil_iff.mpr fun c member =>
        (List.mem_append.mp member).elim (inFront c) (inBack c)]
      rfl
    | cons first core =>
      have head : ∀ c ∈ (first :: core ++ back).head?, isBlank c = false := head
      have last : ∀ c ∈ (first :: core).reverse.head?, isBlank c = false := by
        rwa [List.head?_reverse]
      have inBack : ∀ c ∈ back.reverse, isBlank c = true := fun c member =>
        inBack c (List.mem_reverse.mp member)
      rw [dropWhile_blanks inFront head, List.reverse_append, dropWhile_blanks inBack last,
        List.reverse_reverse]
  · intro same
    exact same ▸ trimmed_trim text

/-- A text without any blank is left as it is. -/
theorem Trimmed.of_forall (pure : ∀ c ∈ text, isBlank c = false) : Trimmed text text where
  split := ⟨[], [], by simp, by simp, by simp⟩
  head c first := pure c (List.mem_of_head? first)
  last c final := pure c (List.mem_of_getLast? final)

namespace Hex

open Emitted (value? numeral?)

/-! ## Marks -/

/-- What is left of a text without its mark: one leading `0x` or else one leading `0X`. -/
inductive Unmarked : List Char → List Char → Prop
  | lower (digits : List Char) : Unmarked ('0' :: 'x' :: digits) digits
  | upper (digits : List Char) : Unmarked ('0' :: 'X' :: digits) digits
  | bare {text : List Char} (noLower : ∀ digits, text ≠ '0' :: 'x' :: digits)
      (noUpper : ∀ digits, text ≠ '0' :: 'X' :: digits) : Unmarked text text

theorem unmarked_iff {text digits : List Char} : Unmarked text digits ↔ digits = dropMark text := by
  constructor
  · intro unmarked
    cases unmarked with
    | lower => rfl
    | upper => rfl
    | bare noLower noUpper =>
      unfold dropMark
      split
      · exact absurd rfl (noLower _)
      · exact absurd rfl (noUpper _)
      · rfl
  · intro same
    subst same
    unfold dropMark
    split
    · exact .lower _
    · exact .upper _
    · rename_i noLower noUpper
      exact .bare noLower noUpper

/-! ## Numerals -/

/-- A character is the digit of a value, in either case. -/
def IsDigit (c : Char) (value : Nat) : Prop :=
  value < 16 ∧ (c = value.digitChar ∨ c = value.digitChar.toUpper)

/-- A numeral is one digit or more, after an optional plus sign. Each digit counts sixteen times as
much as the next. -/
def Numeral (text : List Char) (n : Nat) : Prop :=
  ∃ digits values, (text = digits ∨ text = '+' :: digits) ∧ digits ≠ [] ∧
    List.Forall₂ IsDigit digits values ∧ n = Nat.ofDigits 16 values.reverse

variable {c : Char} {value n : Nat} {text digits : List Char} {w : Word}

theorem digit?_eq_some_iff : digit? c = some value ↔ IsDigit c value := by
  constructor
  · intro read
    have low : ∀ n < 103, ∀ v ∈ digit? (Char.ofNat n),
        v < 16 ∧ (Char.ofNat n = v.digitChar ∨ Char.ofNat n = v.digitChar.toUpper) := by
      decide +kernel
    have bound : c.toNat < 103 := by
      unfold digit? at read
      simp only [Bool.and_eq_true, decide_eq_true_eq] at read
      split at read
      · rename_i within
        exact Nat.lt_of_le_of_lt (show c.toNat ≤ '9'.toNat from within.2) (by decide)
      · split at read
        · rename_i within
          exact Nat.lt_of_le_of_lt (show c.toNat ≤ 'f'.toNat from within.2) (by decide)
        · split at read
          · rename_i within
            exact Nat.lt_of_le_of_lt (show c.toNat ≤ 'F'.toNat from within.2) (by decide)
          · cases read
    rw [← Char.ofNat_toNat c] at read ⊢
    exact low c.toNat bound value read
  · intro isDigit
    obtain ⟨bound, rfl | rfl⟩ := isDigit
    · have all : ∀ v < 16, digit? v.digitChar = some v := by decide
      exact all value bound
    · have all : ∀ v < 16, digit? v.digitChar.toUpper = some v := by decide
      exact all value bound

/-- The digits of a row, after others with the value `start`. -/
theorem foldlM_digit?_eq_some_iff {start : Nat} :
    text.foldlM (fun value c => (digit? c).map fun d => 16 * value + d) start = some n ↔
      ∃ values, List.Forall₂ IsDigit text values ∧
        n = start * 16 ^ text.length + Nat.ofDigits 16 values.reverse := by
  induction text generalizing start with
  | nil =>
    simp only [List.forall₂_nil_left_iff, exists_eq_left]
    simp [eq_comm]
  | cons c rest ih =>
    have value (d : Nat) (values : List Nat) (same : values.length = rest.length) :
        (16 * start + d) * 16 ^ rest.length + Nat.ofDigits 16 values.reverse =
          start * 16 ^ (c :: rest).length + Nat.ofDigits 16 (d :: values).reverse := by
      rw [Nat.ofDigits_reverse_cons, List.length_cons, same, Nat.pow_succ]
      ring
    rw [List.foldlM_cons, Option.bind_eq_bind, Option.bind_eq_some_iff]
    constructor
    · intro run
      obtain ⟨next, read, run⟩ := run
      obtain ⟨d, isDigit, rfl⟩ := Option.map_eq_some_iff.mp read
      obtain ⟨values, digits, rfl⟩ := ih.mp run
      exact ⟨d :: values, .cons (digit?_eq_some_iff.mp isDigit) digits,
        value d values digits.length_eq.symm⟩
    · intro spelled
      obtain ⟨_, spelled, rfl⟩ := spelled
      obtain ⟨d, values, isDigit, digits, rfl⟩ := List.forall₂_cons_left_iff.mp spelled
      exact ⟨16 * start + d, by rw [digit?_eq_some_iff.mpr isDigit]; rfl,
        ih.mpr ⟨values, digits, (value d values digits.length_eq.symm).symm⟩⟩

theorem digits?_eq_some_iff : digits? text = some n ↔
    ∃ values, List.Forall₂ IsDigit text values ∧ n = Nat.ofDigits 16 values.reverse := by
  rw [digits?, foldlM_digit?_eq_some_iff]
  simp only [Nat.zero_mul, Nat.zero_add]

theorem isBlank_of_mem {values : List Nat} (spelled : List.Forall₂ IsDigit text values)
    (member : c ∈ text) : isBlank c = false := by
  induction spelled with
  | nil => cases member
  | cons isDigit _ ih =>
    rcases List.mem_cons.mp member with rfl | member
    · have all : ∀ v < 16, isBlank v.digitChar = false ∧ isBlank v.digitChar.toUpper = false := by
        decide
      obtain ⟨bound, rfl | rfl⟩ := isDigit
      · exact (all _ bound).1
      · exact (all _ bound).2
    · exact ih member

theorem not_isDigit_plus : ¬ IsDigit '+' value := by
  intro isDigit
  have none : digit? '+' = none := by decide
  cases none.symm.trans (digit?_eq_some_iff.mpr isDigit)

/-- Without a sign, digits are read as a word if there are any and their value has at most 32 bits. -/
theorem signless_eq_some_iff :
    (if digits.isEmpty then none else (digits? digits).bind fun value =>
      if value < 0x100000000 then some (BitVec.ofNat 32 value) else none) = some w ↔
    digits ≠ [] ∧ ∃ values, List.Forall₂ IsDigit digits values ∧
      w.toNat = Nat.ofDigits 16 values.reverse := by
  rw [← digits?_eq_some_iff]
  cases digits with
  | nil => simp
  | cons c rest =>
    rw [List.isEmpty_cons, if_neg Bool.false_ne_true, Option.bind_eq_some_iff]
    constructor
    · intro read
      obtain ⟨value, read, isWord⟩ := read
      split at isWord
      · rename_i bound
        rw [← Option.some.inj isWord, BitVec.toNat_ofNat, Nat.mod_eq_of_lt bound]
        exact ⟨List.cons_ne_nil _ _, read⟩
      · cases isWord
    · intro read
      refine ⟨w.toNat, read.2, ?_⟩
      rw [if_pos w.isLt, BitVec.ofNat_toNat, BitVec.setWidth_eq]

/-- Just the numerals of at most 32 bits are read. -/
theorem number?_eq_some_iff : number? text = some w ↔ Numeral text w.toNat := by
  unfold number? Numeral
  simp only [signless_eq_some_iff]
  constructor
  · split
    · rename_i rest
      intro read
      obtain ⟨nonempty, values, digits, value⟩ := read
      exact ⟨rest, values, .inr rfl, nonempty, digits, value⟩
    · intro read
      obtain ⟨nonempty, values, digits, value⟩ := read
      exact ⟨text, values, .inl rfl, nonempty, digits, value⟩
  · intro numeral
    obtain ⟨row, values, rfl | rfl, nonempty, digits, value⟩ := numeral
    · split
      · obtain ⟨v, _, isDigit, -⟩ := List.forall₂_cons_left_iff.mp digits
        exact absurd isDigit not_isDigit_plus
      · exact ⟨nonempty, values, digits, value⟩
    · exact ⟨nonempty, values, digits, value⟩

/-! ## Texts -/

/-- A text denotes the value of the numeral that is left without blanks around it, one mark, and the
underscores. -/
def Denotes (text : List Char) (n : Nat) : Prop :=
  ∃ core digits, Trimmed text core ∧ Unmarked core digits ∧ Numeral (digits.filter (· != '_')) n

theorem parse?_eq_some_iff {text : String} : parse? text = some w ↔ Denotes text.toList w.toNat := by
  have staged : Denotes text.toList w.toNat ↔
      Numeral ((dropMark (trim text.toList)).filter (· != '_')) w.toNat := by
    constructor
    · intro denotes
      obtain ⟨core, digits, trimmed, unmarked, numeral⟩ := denotes
      rwa [← trimmed_iff.mp trimmed, ← unmarked_iff.mp unmarked]
    · exact fun numeral => ⟨_, _, trimmed_iff.mpr rfl, unmarked_iff.mpr rfl, numeral⟩
  rw [staged, ← number?_eq_some_iff]
  unfold parse?
  cases dropMark (trim text.toList) with
  | nil => exact Iff.rfl
  | cons c rest => exact Iff.rfl

theorem parse?_eq_none_iff {text : String} :
    parse? text = none ↔ ∀ n < 2 ^ 32, ¬ Denotes text.toList n := by
  rw [Option.eq_none_iff_forall_ne_some]
  constructor
  · intro refused n bound denotes
    refine refused (BitVec.ofNat 32 n) (parse?_eq_some_iff.mpr ?_)
    rwa [BitVec.toNat_ofNat, Nat.mod_eq_of_lt bound]
  · exact fun refused w read => refused w.toNat w.isLt (parse?_eq_some_iff.mp read)

/-! ## Written words -/

/-- Texts and emitted sources have the same digits. -/
theorem digits?_eq : digits? text = Emitted.digits? 16 0 text := by
  have digit (c : Char) : Emitted.digit? 16 c = digit? c := by
    unfold Emitted.digit?
    cases read : digit? c with
    | none => rfl
    | some value => rw [Option.bind_some, if_pos (digit?_eq_some_iff.mp read).1]
  unfold digits? Emitted.digits?
  simp only [digit, Nat.mul_comm 16]

/-- A number with a mark that can be read in an emitted source is a text that can be read. -/
theorem parse?_of_numeral? {text : String} (marked : text.toList = '0' :: 'x' :: digits)
    (read : numeral? text = some w.toNat) : parse? text = some w := by
  rw [Emitted.numeral?_hexadecimal marked, value?] at read
  split at read
  · cases read
  · rename_i nonempty
    rw [← digits?_eq, digits?_eq_some_iff] at read
    obtain ⟨values, spelled, value⟩ := read
    have numeral : Numeral (digits.filter (· != '_')) w.toNat :=
      ⟨_, values, .inl rfl, fun empty => nonempty (List.isEmpty_iff.mpr empty), spelled, value⟩
    have pure : ∀ c ∈ text.toList, isBlank c = false := by
      rw [marked, List.forall_mem_cons, List.forall_mem_cons]
      refine ⟨by decide, by decide, fun c member => ?_⟩
      by_cases underscore : c = '_'
      · subst underscore
        decide
      · exact isBlank_of_mem spelled (List.mem_filter.mpr ⟨member, bne_iff_ne.mpr underscore⟩)
    rw [parse?_eq_some_iff]
    refine ⟨text.toList, digits, .of_forall pure, ?_, numeral⟩
    rw [marked]
    exact .lower digits

/-- A text is read as the word that it denotes, and as none if it denotes no number of 32 bits. Whatever
way a word is written in is one to read it, and words in the arguments of a command are read in the
same way. -/
theorem parse_exact (text : String) :
    (∀ w : Word, parse? text = some w ↔ Denotes text.toList w.toNat) ∧
    (parse? text = none ↔ ∀ n < 2 ^ 32, ¬ Denotes text.toList n) ∧
    (∀ w : Word, parse? (short w.toNat) = some w ∧ parse? (padded w) = some w ∧
      parse? (halves w) = some w) ∧
    (∀ w : Word, Word.ofText text = .ok w ↔ parse? text = some w) ∧
    (Word.ofText text = .error ⟨text⟩ ↔ parse? text = none) := by
  refine ⟨fun _ => parse?_eq_some_iff, parse?_eq_none_iff, fun w => ⟨?_, ?_, ?_⟩, fun w => ?_, ?_⟩
  · exact parse?_of_numeral? (Emitted.toList_short _) (Emitted.numeral?_short _)
  · exact parse?_of_numeral? (Emitted.toList_paddedTo 8 _) (Emitted.numeral?_paddedTo 8 _)
  · exact parse?_of_numeral? (Emitted.toList_halves w) (Emitted.numeral?_halves w)
  · unfold Word.ofText
    cases parse? text <;> simp
  · unfold Word.ofText
    cases parse? text <;> simp

example : parse? " 0X+_00_fF\t" = some 0xff ∧ parse? "0x0x13" = none ∧
    parse? "0x1_0000_0000" = none := by decide +kernel

end Hex

end DecodeTables.Text
