import DecodeTables.Artifact.Lookup
import DecodeTables.Proofs.Immediate
import DecodeTables.Proofs.Emitted.Expression

/-!
# Formulas as emitted expressions

The text of a `Formula` is an expression in the bits of the word (`formulaExpr`), and the function
around it computes the formula (`run?_formulaFunction`). The formula of a layout is its decoding
(`eval_formula?`).
-/

namespace DecodeTables.Emitted

open Artifact

/-! ## Texts -/

def shiftedDown (amount : Nat) (e : Expr) : Expr :=
  if amount = 0 then e else .binary .shr e (.literal amount)

def shiftedUp (amount : Nat) (e : Expr) : Expr :=
  if amount = 0 then e else .binary .shl e (.literal amount)

def masked : Option Word → Expr → Expr
  | some mask, e => .binary .and e (.literal mask.toNat)
  | none, e => e

def sliceExpr (s : Slice) : Expr := shiftedUp s.up (masked s.mask (shiftedDown s.down (.name "raw")))

def bitsExpr : List Slice → Expr
  | [] => .literal 0
  | s :: slices => slices.foldl (fun e s => .binary .or e (sliceExpr s)) (sliceExpr s)

def formulaExpr (f : Formula) : Expr :=
  match f.signed with
  | some width => .call "sext" (.cons (bitsExpr f.slices) (.cons (.literal width) .nil))
  | none => .cast (bitsExpr f.slices) .i64

def formulaFunction (layout : Immediate) (f : Formula) : Function where
  name := immediateFunction layout
  parameters := [("raw", .u32)]
  result := .i64
  locals := []
  value := formulaExpr f

def signFunction : Function where
  name := "sext"
  parameters := [("value", .u32), ("width", .u32)]
  result := .i64
  locals := [("shift", .binary .sub (.literal 64) (.name "width"))]
  value := .binary .shr
    (.binary .shl (.cast (.name "value") .i64) (.name "shift")) (.name "shift")

variable {layout : Immediate} {f : Formula}

/-- The text of each layout's formula. -/
def bodyText : Immediate → String
  | .i => "sext(raw >> 20, 12)"
  | .s => "sext(((raw >> 25) << 5) | ((raw >> 7) & 0x1f), 12)"
  | .b => "sext(((raw >> 31) << 12) | (((raw >> 7) & 1) << 11) | (((raw >> 25) & 0x3f) << 5) | (((raw >> 8) & 0xf) << 1), 13)"
  | .u => "(raw & 0xffff_f000) as i64"
  | .j => "sext(((raw >> 31) << 20) | (((raw >> 12) & 0xff) << 12) | (((raw >> 20) & 1) << 11) | (((raw >> 21) & 0x3ff) << 1), 21)"
  | .fence => "(raw >> 20) as i64"
  | .absent => ""

theorem text_formula? (chosen : formula? layout = some f) : f.text = bodyText layout := by
  cases layout <;> cases chosen <;> decide +kernel

/-- The text of a formula is read as its expression, up to the brace that stands behind it. -/
theorem read?_formula? (chosen : formula? layout = some f) :
    Expr.read? (tokens f.text) = some (formulaExpr f) ∧ .mark '\x7d' ∉ tokens f.text ∧
      tokens f.text ≠ [] ∧ (tokens f.text).head? ≠ some (.word "let") := by
  rw [text_formula? chosen]
  cases layout <;> cases chosen <;> rw [bodyText, tokens_ofList] <;> decide +kernel

/-! ## Values -/

theorem eval_binary {calls : String → List Value → Option Value} {values : List (String × Value)}
    {op : Operator} {a b : Expr} {x y : Value} (left : a.eval calls values = some x)
    (right : b.eval calls values = some y) :
    (Expr.binary op a b).eval calls values = op.compute? x y := by
  rw [Expr.eval, left, right]
  rfl

/-- A call in three steps: its arguments, the variables and the result. -/
theorem run?_eq {calls : String → List Value → Option Value} {f : Function}
    {arguments : List Value} {start values : List (String × Value)} {v : Value}
    (bound : Function.arguments? f.parameters arguments = some start)
    (defined : f.locals.foldlM (fun values (x, e) => do
      return (x, ← e.eval calls values) :: values) start = some values)
    (result : f.value.eval calls values = some v) :
    f.run? calls arguments = v.typed? f.result := by
  rw [Function.run?, bound]
  simp only [Option.bind_eq_bind, Option.bind_some, Option.pure_def] at defined ⊢
  rw [defined, Option.bind_some, result, Option.bind_some]

variable {calls : String → List Value → Option Value} {raw : Word}

theorem ofInt?_u32 {n : Nat} (bound : n < 2 ^ 32) :
    Value.ofInt? .u32 n = some (.u32 (BitVec.ofNat 32 n)) := by
  have wrapped : IntType.u32.wrap n = .u32 (BitVec.ofNat 32 n) := by
    rw [IntType.wrap, BitVec.ofInt_natCast]
  have agrees : (Value.u32 (BitVec.ofNat 32 n)).toInt = n := by
    rw [Value.toInt, BitVec.toNat_ofNat, Nat.mod_eq_of_lt bound]
  rw [Value.ofInt?, wrapped, if_pos agrees]

section

variable {e : Expr} {values : List (String × Value)} {w : Word}
  (value : e.eval calls values = some (.u32 w))
include value

theorem eval_shiftedDown {amount : Nat} (below : amount < 32) :
    (shiftedDown amount e).eval calls values = some (.u32 (w >>> amount)) := by
  unfold shiftedDown
  split
  · rename_i zero
    rw [value, zero, BitVec.ushiftRight_zero]
  · rw [Expr.eval, value]
    exact if_pos below

theorem eval_shiftedUp {amount : Nat} (below : amount < 32) :
    (shiftedUp amount e).eval calls values = some (.u32 (w <<< amount)) := by
  unfold shiftedUp
  split
  · rename_i zero
    rw [value, zero, BitVec.shiftLeft_zero]
  · rw [Expr.eval, value]
    exact if_pos below

theorem eval_masked (mask : Option Word) : (masked mask e).eval calls values =
    some (.u32 (match mask with | some mask => w &&& mask | none => w)) := by
  cases mask with
  | none => exact value
  | some mask =>
    have typed : Value.typed? .u32 (.literal mask.toNat) = some (.u32 mask) := by
      rw [Value.typed?, ofInt?_u32 mask.isLt, BitVec.ofNat_toNat, BitVec.setWidth_eq]
    have step : Operator.and.compute? (.u32 w) (.literal mask.toNat) =
        (Value.typed? .u32 (.literal mask.toNat)).bind (Value.join? (· &&& ·) (.u32 w)) := rfl
    rw [masked, Expr.eval, value]
    exact step.trans (by rw [typed]; rfl)

end

theorem eval_sliceExpr {s : Slice} (down : s.down < 32) (up : s.up < 32) :
    (sliceExpr s).eval calls [("raw", .u32 raw)] = some (.u32 (s.eval raw)) :=
  eval_shiftedUp (eval_masked (eval_shiftedDown rfl down) s.mask) up

/-- Slices that stay inside the word are joined to the bits of the formula. -/
theorem eval_bitsExpr {slices : List Slice} (nonempty : slices ≠ [])
    (inside : ∀ s ∈ slices, s.down < 32 ∧ s.up < 32) :
    (bitsExpr slices).eval calls [("raw", .u32 raw)] =
      some (.u32 (slices.foldl (fun bits s => bits ||| s.eval raw) 0)) := by
  obtain ⟨s, slices, rfl⟩ := List.exists_cons_of_ne_nil nonempty
  rw [List.forall_mem_cons] at inside
  have joined (e : Expr) (bits : Word)
      (value : e.eval calls [("raw", .u32 raw)] = some (.u32 bits)) (slices : List Slice)
      (inside : ∀ s ∈ slices, s.down < 32 ∧ s.up < 32) :
      (slices.foldl (fun e s => .binary .or e (sliceExpr s)) e).eval calls [("raw", .u32 raw)] =
        some (.u32 (slices.foldl (fun bits s => bits ||| s.eval raw) bits)) := by
    induction slices generalizing e bits with
    | nil => exact value
    | cons s slices ih =>
      rw [List.forall_mem_cons] at inside
      refine ih _ _ ?_ inside.2
      rw [Expr.eval, value, eval_sliceExpr inside.1.1 inside.1.2]
      rfl
  have first : (0 : Word) ||| s.eval raw = s.eval raw := BitVec.zero_or
  rw [bitsExpr, List.foldl_cons, first]
  exact joined _ _ (eval_sliceExpr inside.1.1 inside.1.2) slices inside.2

/-- Shifting up and down again extends the sign of the low bits. -/
theorem sshiftRight_shiftLeft (w : Word) {width : Nat} (positive : 0 < width) (le : width ≤ 32) :
    (w.setWidth 64 <<< (64 - width)).sshiftRight (64 - width) =
      (w.setWidth width).signExtend 64 := by
  refine BitVec.eq_of_getLsbD_eq fun k bound => ?_
  rw [BitVec.getLsbD_sshiftRight, BitVec.getLsbD_signExtend, BitVec.msb_eq_getLsbD_last,
    BitVec.msb_eq_getLsbD_last]
  simp only [BitVec.getLsbD_shiftLeft, BitVec.getLsbD_setWidth]
  grind

theorem wrap_toInt_u32 (w : Word) :
    IntType.i64.wrap (Value.u32 w).toInt = .i64 (w.setWidth 64) := by
  rw [IntType.wrap, Value.toInt, BitVec.ofInt_natCast, BitVec.ofNat_toNat]

section

variable {width : Nat} (positive : 0 < width) (le : width ≤ 32)

/-- The shift that `sext` computes. -/
theorem sub_width (le : width ≤ 32) :
    Operator.sub.compute? (.literal 64) (.u32 (BitVec.ofNat 32 width)) =
      some (.u32 (BitVec.ofNat 32 (64 - width))) := by
  have difference : (Value.u32 64#32).toInt - (Value.u32 (BitVec.ofNat 32 width)).toInt =
      ((64 - width : Nat) : Int) := by
    simp only [Value.toInt, BitVec.toNat_ofNat, Nat.mod_eq_of_lt (by omega : width < 2 ^ 32)]
    omega
  calc Operator.sub.compute? (.literal 64) (.u32 (BitVec.ofNat 32 width))
    _ = Value.ofInt? .u32 ((Value.u32 64#32).toInt - (Value.u32 (BitVec.ofNat 32 width)).toInt) :=
      rfl
    _ = some (.u32 (BitVec.ofNat 32 (64 - width))) := by rw [difference, ofInt?_u32 (by omega)]

theorem toNat?_toInt_u32 {n : Nat} (bound : n < 2 ^ 32) :
    (Value.u32 (BitVec.ofNat 32 n)).toInt.toNat? = some n := by
  rw [Value.toInt, BitVec.toNat_ofNat, Nat.mod_eq_of_lt bound]
  rfl

theorem shl_i64 {amount : Nat} (below : amount < 64) (x : BitVec 64) :
    Operator.shl.compute? (.i64 x) (.u32 (BitVec.ofNat 32 amount)) = some (.i64 (x <<< amount)) := by
  rw [Operator.compute?, toNat?_toInt_u32 (by omega), Option.bind_some, Value.shiftLeft?,
    if_pos below]

theorem shr_i64 {amount : Nat} (below : amount < 64) (x : BitVec 64) :
    Operator.shr.compute? (.i64 x) (.u32 (BitVec.ofNat 32 amount)) =
      some (.i64 (x.sshiftRight amount)) := by
  rw [Operator.compute?, toNat?_toInt_u32 (by omega), Option.bind_some, Value.shiftRight?,
    if_pos below]

include positive le

/-- What `sext` answers is the signed number in the low bits. -/
theorem run?_signFunction (w : Word) : signFunction.run? calls [.u32 w, .literal width] =
    some (.i64 ((w.setWidth width).signExtend 64)) := by
  let start : List (String × Value) :=
    [("value", .u32 w), ("width", .u32 (BitVec.ofNat 32 width))]
  let values : List (String × Value) := ("shift", .u32 (BitVec.ofNat 32 (64 - width))) :: start
  have typed : Value.typed? .u32 (.literal width) = some (.u32 (BitVec.ofNat 32 width)) :=
    ofInt?_u32 (by omega)
  have arguments : Function.arguments? signFunction.parameters [.u32 w, .literal width] =
      some start := by
    simp only [signFunction, Function.arguments?, typed]
    rfl
  have shift : (Expr.binary .sub (.literal 64) (.name "width")).eval calls start =
      some (.u32 (BitVec.ofNat 32 (64 - width))) := (eval_binary rfl rfl).trans (sub_width le)
  have defined : signFunction.locals.foldlM (fun values (x, e) => do
      return (x, ← e.eval calls values) :: values) start = some values := by
    simp only [signFunction, List.foldlM_cons, List.foldlM_nil, shift]
    rfl
  have cast : (Expr.cast (.name "value") .i64).eval calls values = some (.i64 (w.setWidth 64)) :=
    congrArg some (wrap_toInt_u32 w)
  have below : 64 - width < 64 := by omega
  have up := (eval_binary (a := .cast (.name "value") .i64) (b := .name "shift")
    cast rfl).trans (shl_i64 below _)
  have down := (eval_binary (b := .name "shift") up rfl).trans (shr_i64 below _)
  rw [sshiftRight_shiftLeft w positive le] at down
  exact run?_eq arguments defined down

end

/-! ## Immediates -/

/-- The slices of a layout stay inside the word, and so does the sign. -/
theorem inside_of_formula? (chosen : formula? layout = some f) :
    f.slices ≠ [] ∧ (∀ s ∈ f.slices, s.down < 32 ∧ s.up < 32) ∧
      ∀ width ∈ f.signed, 0 < width ∧ width ≤ 32 := by
  cases layout <;> cases chosen <;> decide

section

variable {values : List (String × Value)} {w : Word}
  (bits : (bitsExpr f.slices).eval calls values = some (.u32 w))
include bits

/-- Bits without a sign are a number as they are. -/
theorem eval_unsigned (unsigned : f.signed = none) :
    (formulaExpr f).eval calls values = some (.i64 (w.setWidth 64)) := by
  unfold formulaExpr
  rw [unsigned]
  dsimp only
  rw [Expr.eval, bits]
  exact congrArg some (wrap_toInt_u32 w)

/-- Bits with a sign are what `sext` answers, if it answers as it is defined. -/
theorem eval_signed {width : Nat} (signed : f.signed = some width) (positive : 0 < width)
    (le : width ≤ 32) (sign : ∀ arguments, ∃ calls',
      calls "sext" arguments = signFunction.run? calls' arguments) :
    (formulaExpr f).eval calls values = some (.i64 ((w.setWidth width).signExtend 64)) := by
  obtain ⟨calls', sext⟩ := sign [.u32 w, .literal width]
  have arguments : Expr.evalAll calls values
      (.cons (bitsExpr f.slices) (.cons (.literal width) .nil)) =
        some [.u32 w, .literal width] := by
    rw [Expr.evalAll, bits]
    rfl
  unfold formulaExpr
  rw [signed]
  dsimp only
  rw [Expr.eval, arguments]
  exact sext.trans (run?_signFunction positive le w)

end

/-- The function of a layout computes its formula, if `sext` answers as it is defined. -/
theorem run?_formulaFunction (chosen : formula? layout = some f)
    (sign : f.signed.isSome = true → ∀ arguments, ∃ calls',
      calls "sext" arguments = signFunction.run? calls' arguments) :
    ∃ value, (formulaFunction layout f).run? calls [.u32 raw] = some (.i64 value) ∧
      value.toInt = f.eval raw := by
  obtain ⟨nonempty, inside, widths⟩ := inside_of_formula? chosen
  have bits : (bitsExpr f.slices).eval calls [("raw", .u32 raw)] = some (.u32 (f.bits raw)) :=
    eval_bitsExpr nonempty inside
  have run {value : BitVec 64}
      (computed : (formulaExpr f).eval calls [("raw", .u32 raw)] = some (.i64 value)) :
      (formulaFunction layout f).run? calls [.u32 raw] = some (.i64 value) :=
    (run?_eq (f := formulaFunction layout f) rfl rfl computed).trans rfl
  cases signed : f.signed with
  | none =>
    refine ⟨_, run (eval_unsigned bits signed), ?_⟩
    have below := (f.bits raw).isLt
    rw [Formula.eval, signed, BitVec.toInt_eq_toNat_of_lt, BitVec.toNat_setWidth_of_le]
    · decide
    · rw [BitVec.toNat_setWidth_of_le (by decide)]
      omega
  | some width =>
    obtain ⟨positive, le⟩ := widths width signed
    refine ⟨_, run (eval_signed bits signed positive le (sign (by rw [signed]; rfl))), ?_⟩
    rw [Formula.eval, signed, BitVec.toInt_signExtend_of_le (by omega)]

/-- A mask of low bits keeps them. -/
theorem getLsbD_and_span {w mask : Word} {hi : Nat} (low : mask = Word.span hi 0)
    (bound : hi < 32) (k : Nat) : (w &&& mask).getLsbD k = (w.getLsbD k && decide (k ≤ hi)) := by
  rw [low, BitVec.getLsbD_and, Word.getLsbD_span k (Nat.zero_le hi) bound]
  simp

/-- The formula of a layout is its decoding. -/
theorem eval_formula? (chosen : formula? layout = some f) :
    layout.decode? raw = some (f.eval raw) := by
  have one (w : Word) (k : Nat) : (w &&& 1).getLsbD k = (w.getLsbD k && decide (k ≤ 0)) :=
    getLsbD_and_span (by decide) (by decide) k
  cases layout <;> cases chosen <;>
    simp only [Immediate.decode?, Formula.eval, Formula.bits, List.foldl_cons, List.foldl_nil,
      Slice.eval, Option.some.injEq]
  case i =>
    congr 1
    refine BitVec.eq_of_getLsbD_eq fun k _ => ?_
    simp only [BitVec.getLsbD_extractLsb', BitVec.getLsbD_setWidth, BitVec.getLsbD_or,
      BitVec.getLsbD_shiftLeft, BitVec.getLsbD_ushiftRight]
    grind
  case s =>
    have five (w : Word) (k : Nat) : (w &&& 0x1f).getLsbD k = (w.getLsbD k && decide (k ≤ 4)) :=
      getLsbD_and_span (by decide) (by decide) k
    congr 1
    refine BitVec.eq_of_getLsbD_eq fun k _ => ?_
    simp only [BitVec.getLsbD_append, BitVec.getLsbD_extractLsb', BitVec.getLsbD_setWidth,
      BitVec.getLsbD_or, BitVec.getLsbD_shiftLeft, BitVec.getLsbD_ushiftRight, five]
    grind
  case b =>
    have four (w : Word) (k : Nat) : (w &&& 0xf).getLsbD k = (w.getLsbD k && decide (k ≤ 3)) :=
      getLsbD_and_span (by decide) (by decide) k
    have six (w : Word) (k : Nat) : (w &&& 0x3f).getLsbD k = (w.getLsbD k && decide (k ≤ 5)) :=
      getLsbD_and_span (by decide) (by decide) k
    congr 1
    refine BitVec.eq_of_getLsbD_eq fun k _ => ?_
    simp only [BitVec.getLsbD_append, BitVec.getLsbD_extractLsb', BitVec.getLsbD_setWidth,
      BitVec.getLsbD_or, BitVec.getLsbD_shiftLeft, BitVec.getLsbD_ushiftRight, BitVec.getLsbD_zero,
      one, four, six]
    grind
  case u =>
    have upper (w : Word) (k : Nat) :
        (w &&& 0xfffff000).getLsbD k = (w.getLsbD k && decide (12 ≤ k ∧ k ≤ 31)) := by
      have high : (0xfffff000 : Word) = Word.span 31 12 := by decide
      rw [high, BitVec.getLsbD_and, Word.getLsbD_span k (by decide) (by decide)]
    congr 2
    refine BitVec.eq_of_getLsbD_eq fun k _ => ?_
    simp only [BitVec.getLsbD_append, BitVec.getLsbD_extractLsb', BitVec.getLsbD_or,
      BitVec.getLsbD_shiftLeft, BitVec.getLsbD_ushiftRight, BitVec.getLsbD_zero, upper]
    grind
  case j =>
    have eight (w : Word) (k : Nat) : (w &&& 0xff).getLsbD k = (w.getLsbD k && decide (k ≤ 7)) :=
      getLsbD_and_span (by decide) (by decide) k
    have ten (w : Word) (k : Nat) : (w &&& 0x3ff).getLsbD k = (w.getLsbD k && decide (k ≤ 9)) :=
      getLsbD_and_span (by decide) (by decide) k
    congr 1
    refine BitVec.eq_of_getLsbD_eq fun k _ => ?_
    simp only [BitVec.getLsbD_append, BitVec.getLsbD_extractLsb', BitVec.getLsbD_setWidth,
      BitVec.getLsbD_or, BitVec.getLsbD_shiftLeft, BitVec.getLsbD_ushiftRight, BitVec.getLsbD_zero,
      one, eight, ten]
    grind
  case fence =>
    have wide : (raw.extractLsb' 20 12).toNat = ((raw.extractLsb' 20 12).setWidth 32).toNat :=
      (BitVec.toNat_setWidth_of_le (by decide)).symm
    rw [wide]
    congr 2
    refine BitVec.eq_of_getLsbD_eq fun k _ => ?_
    simp only [BitVec.getLsbD_extractLsb', BitVec.getLsbD_setWidth, BitVec.getLsbD_or,
      BitVec.getLsbD_shiftLeft, BitVec.getLsbD_ushiftRight]
    grind

end DecodeTables.Emitted
