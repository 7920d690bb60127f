import DecodeTables.Proofs.Emitted.Token

/-!
# Numerals of emitted sources

`numeral?` is the value of a word that is a number: decimal, or hexadecimal behind `0x`, with
underscores anywhere among the digits. Every way of writing numbers in `Text.Hex` is read back by it,
and so is the decimal one.
-/

namespace DecodeTables.Emitted

open Text

/-- The value of a digit in a base up to sixteen. -/
def digit? (base : Nat) (c : Char) : Option Nat :=
  (Hex.digit? c).bind fun d => if d < base then some d else none

/-- The value of digits behind others that have the value `start`. -/
def digits? (base start : Nat) (digits : List Char) : Option Nat :=
  digits.foldlM (fun value c => (digit? base c).map fun d => value * base + d) start

/-- The value of one or more digits with underscores among them. -/
def value? (base : Nat) (text : List Char) : Option Nat :=
  let digits := text.filter (· != '_')
  if digits.isEmpty then none else digits? base 0 digits

def numeral? (text : String) : Option Nat :=
  match text.toList with
  | '0' :: 'x' :: digits => value? 16 digits
  | c :: digits => if c.isDigit then value? 10 (c :: digits) else none
  | [] => none

/-! ## Digits -/

variable {base n : Nat}

theorem digit?_digitChar {d : Nat} (small : d < 16) (below : d < base) :
    digit? base d.digitChar = some d := by
  have value : ∀ d < 16, Hex.digit? d.digitChar = some d := by decide
  rw [digit?, value d small, Option.bind_some, if_pos below]

/-- The characters that write numbers in bases up to sixteen. -/
def IsDigitChar (c : Char) : Prop := ∃ d < 16, c = d.digitChar

theorem IsDigitChar.isWord {c : Char} (digit : IsDigitChar c) : isWordChar c = true := by
  have all : ∀ d < 16, isWordChar d.digitChar = true := by decide
  obtain ⟨d, small, rfl⟩ := digit
  exact all d small

theorem IsDigitChar.ne_underscore {c : Char} (digit : IsDigitChar c) : (c != '_') = true := by
  have all : ∀ d < 16, (d.digitChar != '_') = true := by decide
  obtain ⟨d, small, rfl⟩ := digit
  exact all d small

theorem isDigitChar_of_mem_toDigits {c : Char} (low : 1 < base) (high : base ≤ 16)
    (member : c ∈ Nat.toDigits base n) : IsDigitChar c := by
  induction n using Nat.strongRecOn with
  | ind n ih =>
    rw [Nat.toDigits_eq_if low] at member
    split at member
    · exact ⟨n, by omega, List.mem_singleton.mp member⟩
    · rcases List.mem_append.mp member with member | member
      · exact ih (n / base) (Nat.div_lt_self (by omega) low) member
      · have below : n % base < base := Nat.mod_lt n (by omega)
        exact ⟨n % base, by omega, List.mem_singleton.mp member⟩

theorem isDigitChar_of_mem_digitsPadded {c : Char} {width : Nat}
    (member : c ∈ Hex.digitsPadded width n) : IsDigitChar c := by
  rcases List.mem_append.mp member with member | member
  · exact ⟨0, by decide, List.eq_of_mem_replicate member⟩
  · exact isDigitChar_of_mem_toDigits (by decide) (by decide) member

theorem digits?_append (base start : Nat) (digits later : List Char) :
    digits? base start (digits ++ later) =
      (digits? base start digits).bind fun value => digits? base value later := by
  unfold digits?
  rw [List.foldlM_append]
  rfl

/-- The digits of a number, behind others, add the number to what those are worth. -/
theorem digits?_toDigits (low : 1 < base) (high : base ≤ 16) (start : Nat) :
    digits? base start (Nat.toDigits base n) =
      some (start * base ^ (Nat.toDigits base n).length + n) := by
  have last {d start : Nat} (below : d < base) :
      digits? base start [d.digitChar] = some (start * base + d) := by
    simp [digits?, digit?_digitChar (by omega : d < 16) below]
  induction n using Nat.strongRecOn generalizing start with
  | ind n ih =>
    rw [Nat.toDigits_eq_if low]
    split
    · rename_i below
      rw [last below, List.length_singleton, Nat.pow_one]
    · rename_i above
      rw [digits?_append, ih (n / base) (Nat.div_lt_self (by omega) low), Option.bind_some,
        last (Nat.mod_lt n (by omega)), List.length_append, List.length_singleton, Nat.pow_succ,
        Nat.add_mul, Nat.mul_assoc, Nat.add_assoc, Nat.div_add_mod' n base]

/-- Zeros behind other digits move these up. -/
theorem digits?_replicate_zero (low : 1 < base) (start count : Nat) :
    digits? base start (List.replicate count '0') = some (start * base ^ count) := by
  have zero : digit? base '0' = some 0 := digit?_digitChar (d := 0) (by decide) (by omega)
  have first (start : Nat) : digits? base start ['0'] = some (start * base) := by
    simp [digits?, zero]
  induction count generalizing start with
  | zero => simp [digits?]
  | succ count ih =>
    rw [List.replicate_succ, ← List.singleton_append, digits?_append, first, Option.bind_some, ih,
      Nat.mul_assoc, Nat.pow_succ, Nat.mul_comm base]

/-! ## Writing and reading -/

theorem digitsPadded_ne_nil {width : Nat} : Hex.digitsPadded width n ≠ [] :=
  List.append_ne_nil_of_right_ne_nil _ Nat.toDigits_ne_nil

theorem digits?_digitsPadded (start width : Nat) :
    digits? 16 start (Hex.digitsPadded width n) =
      some (start * 16 ^ (Hex.digitsPadded width n).length + n) := by
  rw [Hex.digitsPadded, digits?_append, digits?_replicate_zero (by decide), Option.bind_some,
    Hex.digits, digits?_toDigits (by decide) (by decide), Nat.mul_assoc, ← Nat.pow_add,
    List.length_append, List.length_replicate]

theorem length_digitsPadded {width : Nat} (positive : 0 < width) (below : n < 16 ^ width) :
    (Hex.digitsPadded width n).length = width := by
  have short : (Nat.toDigits 16 n).length ≤ width :=
    (Nat.length_toDigits_le_iff (by decide) positive).mpr below
  rw [Hex.digitsPadded, List.length_append, List.length_replicate]
  exact Nat.sub_add_cancel short

theorem filter_of_digits {digits : List Char} (pure : ∀ c ∈ digits, IsDigitChar c) :
    digits.filter (· != '_') = digits :=
  List.filter_eq_self.mpr fun c member => (pure c member).ne_underscore

theorem value?_of_digits {digits : List Char} (pure : ∀ c ∈ digits, IsDigitChar c)
    (nonempty : digits ≠ []) : value? base digits = digits? base 0 digits := by
  rw [value?, filter_of_digits pure, List.isEmpty_eq_false_iff.mpr nonempty]
  rfl

theorem numeral?_hexadecimal {text : String} {digits : List Char}
    (marked : text.toList = '0' :: 'x' :: digits) : numeral? text = value? 16 digits := by
  rw [numeral?, marked]
  rfl

theorem isWord_hexadecimal {text : String} {digits : List Char}
    (marked : text.toList = '0' :: 'x' :: digits)
    (inWord : ∀ c ∈ digits, isWordChar c = true) : IsWord text := by
  refine ⟨by rw [marked]; exact List.cons_ne_nil _ _, ?_⟩
  rw [marked, List.forall_mem_cons, List.forall_mem_cons]
  exact ⟨by decide, by decide, inWord⟩

theorem toList_short (n : Nat) : (Hex.short n).toList = '0' :: 'x' :: Nat.toDigits 16 n := by
  simp [Hex.short, Hex.digits]

theorem isWord_short (n : Nat) : IsWord (Hex.short n) :=
  isWord_hexadecimal (toList_short n) fun _ member =>
    (isDigitChar_of_mem_toDigits (by decide) (by decide) member).isWord

theorem numeral?_short (n : Nat) : numeral? (Hex.short n) = some n := by
  rw [numeral?_hexadecimal (toList_short n),
    value?_of_digits (fun _ => isDigitChar_of_mem_toDigits (by decide) (by decide))
      Nat.toDigits_ne_nil,
    digits?_toDigits (by decide) (by decide), Nat.zero_mul, Nat.zero_add]

theorem toList_paddedTo (width n : Nat) :
    (Hex.paddedTo width n).toList = '0' :: 'x' :: Hex.digitsPadded width n := by
  simp [Hex.paddedTo]

theorem isWord_paddedTo (width n : Nat) : IsWord (Hex.paddedTo width n) :=
  isWord_hexadecimal (toList_paddedTo width n) fun _ member =>
    (isDigitChar_of_mem_digitsPadded member).isWord

theorem numeral?_paddedTo (width n : Nat) : numeral? (Hex.paddedTo width n) = some n := by
  rw [numeral?_hexadecimal (toList_paddedTo width n),
    value?_of_digits (fun _ => isDigitChar_of_mem_digitsPadded) digitsPadded_ne_nil,
    digits?_digitsPadded, Nat.zero_mul, Nat.zero_add]

theorem toList_halves (w : Word) : (Hex.halves w).toList = '0' :: 'x' ::
    (Hex.digitsPadded 4 (w.toNat / 65536) ++ '_' :: Hex.digitsPadded 4 (w.toNat % 65536)) := by
  simp [Hex.halves]

theorem isWord_halves (w : Word) : IsWord (Hex.halves w) := by
  refine isWord_hexadecimal (toList_halves w) fun c member => ?_
  rw [List.mem_append, List.mem_cons] at member
  rcases member with member | rfl | member
  · exact (isDigitChar_of_mem_digitsPadded member).isWord
  · decide
  · exact (isDigitChar_of_mem_digitsPadded member).isWord

theorem numeral?_halves (w : Word) : numeral? (Hex.halves w) = some w.toNat := by
  have filtered : (Hex.digitsPadded 4 (w.toNat / 65536) ++
      '_' :: Hex.digitsPadded 4 (w.toNat % 65536)).filter (· != '_') =
        Hex.digitsPadded 4 (w.toNat / 65536) ++ Hex.digitsPadded 4 (w.toNat % 65536) := by
    rw [List.filter_append, List.filter_cons_of_neg (by decide),
      filter_of_digits fun _ => isDigitChar_of_mem_digitsPadded,
      filter_of_digits fun _ => isDigitChar_of_mem_digitsPadded]
  have low : (Hex.digitsPadded 4 (w.toNat % 65536)).length = 4 :=
    length_digitsPadded (by decide) (Nat.mod_lt _ (by decide))
  rw [numeral?_hexadecimal (toList_halves w), value?, filtered, List.isEmpty_eq_false_iff.mpr
    (List.append_ne_nil_of_left_ne_nil digitsPadded_ne_nil _), if_neg Bool.false_ne_true,
    digits?_append, digits?_digitsPadded, Option.bind_some, digits?_digitsPadded, low,
    Nat.zero_mul, Nat.zero_add]
  exact congrArg some (Nat.div_add_mod' w.toNat 65536)

theorem isWord_repr (n : Nat) : IsWord n.repr := by
  unfold IsWord
  rw [Nat.toList_repr]
  exact ⟨Nat.toDigits_ne_nil, fun _ member =>
    (isDigitChar_of_mem_toDigits (by decide) (by decide) member).isWord⟩

theorem numeral?_repr (n : Nat) : numeral? n.repr = some n := by
  have read : value? 10 (Nat.toDigits 10 n) = some n := by
    rw [value?_of_digits (fun _ => isDigitChar_of_mem_toDigits (by decide) (by decide))
      Nat.toDigits_ne_nil, digits?_toDigits (by decide) (by decide), Nat.zero_mul, Nat.zero_add]
  have isDigit {c : Char} (member : c ∈ Nat.toDigits 10 n) : c.isDigit = true :=
    Nat.isDigit_of_mem_toDigits (by decide) (by decide) member
  rw [numeral?, Nat.toList_repr]
  generalize Nat.toDigits 10 n = digits at read isDigit
  split
  · exact absurd (isDigit (by simp : 'x' ∈ _)) (by decide)
  · rw [isDigit List.mem_cons_self, if_pos rfl, read]
  · cases read

end DecodeTables.Emitted
