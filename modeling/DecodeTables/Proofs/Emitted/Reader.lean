import DecodeTables.Proofs.Emitted.Numeral

/-!
# Readers

A `Reader` takes a value off the front of a list of tokens. `Reads` says which tokens it takes for a
value, whatever stands behind them; what a reader with several parts takes is put together from its
parts (`Reads.bind`, `Reads.many_bind`, `Reads.list_bind`, `Reads.repeated_bind`).
-/

namespace DecodeTables.Emitted

/-- Takes a value off the front of a list of tokens, or fails. -/
abbrev Reader := StateT (List Token) Option

namespace Reader

/-- Takes the tokens of a text. -/
def expect (text : String) : Reader Unit := fun ts =>
  if (tokens text).isPrefixOf ts then some ((), ts.drop (tokens text).length) else none

def word : Reader String
  | .word text :: rest => some (text, rest)
  | _ => none

/-- Takes a number below a bound. -/
def number (bound : Nat) : Reader Nat
  | .word text :: rest =>
    (numeral? text).bind fun n => if n < bound then some (n, rest) else none
  | _ => none

/-- Takes the tokens in front of a mark, and the mark. -/
def upTo (close : Char) : Reader (List Token)
  | [] => none
  | t :: rest =>
    if t = .mark close then some ([], rest)
    else (upTo close rest).map fun (front, rest) => (t :: front, rest)

/-- Takes items for as long as the next token is the one that they start with. -/
def manyUpTo {α : Type} (start : Token) (item : Reader α) : Nat → Reader (List α)
  | 0, ts => some ([], ts)
  | count + 1, ts =>
    if ts.head? = some start then
      (item ts).bind fun (a, ts) => (manyUpTo start item count ts).map fun (as, ts) => (a :: as, ts)
    else some ([], ts)

/-- Takes all items. There are no more of them than tokens. -/
def many {α : Type} (start : Token) (item : Reader α) : Reader (List α) := fun ts =>
  manyUpTo start item ts.length ts

/-- Takes items with commas between them; there is one at least. -/
def list {α : Type} (item : Reader α) : Reader (List α) := do
  let first ← item
  let rest ← many (.mark ',') (do
    expect ","
    item)
  return first :: rest

/-- Takes items for as long as there is one to take, up to a number of them. -/
def repeatedUpTo {α : Type} (item : Reader α) : Nat → Reader (List α)
  | 0, ts => some ([], ts)
  | count + 1, ts =>
    match item ts with
    | some (a, ts) => (repeatedUpTo item count ts).map fun (as, ts) => (a :: as, ts)
    | none => some ([], ts)

/-- Takes all items that there are to take, which are no more than tokens. -/
def repeated {α : Type} (item : Reader α) : Reader (List α) := fun ts =>
  repeatedUpTo item ts.length ts

/-- The value that a reader takes all tokens for. -/
def all? {α : Type} (reader : Reader α) (ts : List Token) : Option α :=
  (reader ts).bind fun r => if r.2 = [] then some r.1 else none

end Reader

/-- The tokens are what a reader takes for a value. -/
def Reads {α : Type} (reader : Reader α) (taken : List Token) (value : α) : Prop :=
  ∀ rest, reader (taken ++ rest) = some (value, rest)

namespace Reads

variable {α β ι : Type} {reader item : Reader α} {next : α → Reader β} {taken later : List Token}
  {a : α} {b : β}

theorem all?_eq (reads : Reads reader taken a) : reader.all? taken = some a := by
  have whole := reads []
  rw [List.append_nil] at whole
  rw [Reader.all?, whole, Option.bind_some, if_pos rfl]

theorem pure (a : α) : Reads (Pure.pure a) [] a := fun _ => rfl

theorem bind (first : Reads reader taken a) (second : Reads (next a) later b) :
    Reads (reader >>= next) (taken ++ later) b := by
  intro rest
  have step : (reader >>= next) (taken ++ (later ++ rest)) =
      (reader (taken ++ (later ++ rest))).bind fun r => next r.1 r.2 := rfl
  rw [List.append_assoc, step, first, Option.bind_some, second]

/-- The last part, from which the value is made. -/
theorem bind_pure (last : Reads reader taken a) (f : α → β) :
    Reads (reader >>= fun a => Pure.pure (f a)) taken (f a) := by
  rw [← List.append_nil taken]
  exact bind last (pure (f a))

/-- A step that takes nothing. -/
theorem lift_bind {o : Option α} (found : o = some a) (second : Reads (next a) later b) :
    Reads ((liftM o : Reader α) >>= next) later b := by
  rw [found]
  exact second

theorem expect (text : String) : Reads (Reader.expect text) (tokens text) () := by
  intro rest
  unfold Reader.expect
  rw [if_pos (List.isPrefixOf_iff_prefix.mpr (List.prefix_append _ _)), List.drop_left]

/-- A text may be laid out in another way, as long as it has the same tokens. -/
theorem expect_bind {text : String} {next : Unit → Reader β} (same : tokens text = taken)
    (second : Reads (next ()) later b) : Reads (Reader.expect text >>= next) (taken ++ later) b :=
  bind (same ▸ expect text) second

theorem expect_pure {text : String} (same : tokens text = taken) (a : α) :
    Reads (Reader.expect text >>= fun _ => Pure.pure a) taken a :=
  bind_pure (same ▸ expect text) fun _ => a

theorem word (text : String) : Reads Reader.word [.word text] text := fun _ => rfl

theorem number {text : String} {n bound : Nat} (value : numeral? text = some n)
    (below : n < bound) : Reads (Reader.number bound) [.word text] n := by
  intro rest
  rw [List.singleton_append, Reader.number, value, Option.bind_some, if_pos below]

theorem upTo {close : Char} (inside : .mark close ∉ taken) :
    Reads (Reader.upTo close) (taken ++ [.mark close]) taken := by
  intro rest
  induction taken with
  | nil => rw [List.nil_append, List.singleton_append, Reader.upTo, if_pos rfl]
  | cons t taken ih =>
    rw [List.mem_cons, not_or] at inside
    rw [List.cons_append, List.cons_append, Reader.upTo, if_neg (Ne.symm inside.1), ih inside.2]
    rfl

/-! ## Items -/

variable {start other : Token} {text : ι → List Token} {value : ι → α}

theorem manyUpTo_nil (ends : later.head? = some other) (ne : other ≠ start) (count : Nat)
    (rest : List Token) :
    Reader.manyUpTo start item count (later ++ rest) = some ([], later ++ rest) := by
  cases count with
  | zero => rfl
  | succ count =>
    rw [Reader.manyUpTo, List.head?_append, ends]
    exact if_neg fun same => ne (Option.some.inj same)

theorem manyUpTo_flatMap {items : List ι} {count : Nat}
    (each : ∀ i ∈ items, Reads item (text i) (value i))
    (starts : ∀ i ∈ items, (text i).head? = some start) (ends : later.head? = some other)
    (ne : other ≠ start) (enough : items.length ≤ count) (rest : List Token) :
    Reader.manyUpTo start item count (items.flatMap text ++ (later ++ rest)) =
      some (items.map value, later ++ rest) := by
  induction items generalizing count with
  | nil => exact manyUpTo_nil ends ne count rest
  | cons i items ih =>
    rw [List.forall_mem_cons] at each starts
    obtain ⟨count, rfl⟩ := Nat.exists_eq_add_one_of_ne_zero
      (Nat.ne_of_gt (Nat.lt_of_lt_of_le (Nat.succ_pos items.length) enough))
    rw [List.flatMap_cons, List.append_assoc, Reader.manyUpTo, List.head?_append, starts.1,
      Option.some_or, if_pos rfl, each.1, Option.bind_some]
    dsimp only
    rw [ih each.2 starts.2 (Nat.le_of_succ_le_succ enough)]
    rfl

/-- There are as many tokens as items that have one. -/
theorem length_le_flatMap {items : List ι} (filled : ∀ i ∈ items, text i ≠ []) :
    items.length ≤ (items.flatMap text).length := by
  induction items with
  | nil => exact Nat.zero_le _
  | cons i items ih =>
    rw [List.forall_mem_cons] at filled
    rw [List.flatMap_cons, List.length_append, List.length_cons, Nat.add_comm]
    exact Nat.add_le_add (List.length_pos_iff.mpr filled.1) (ih filled.2)

/-- Items are taken up to the first token that is not the start of one. -/
theorem many_bind {items : List ι} {next : List α → Reader β}
    (each : ∀ i ∈ items, Reads item (text i) (value i))
    (starts : ∀ i ∈ items, (text i).head? = some start) (ends : later.head? = some other)
    (ne : other ≠ start) (after : Reads (next (items.map value)) later b) :
    Reads (Reader.many start item >>= next) (items.flatMap text ++ later) b := by
  intro rest
  have step (ts : List Token) : (Reader.many start item >>= next) ts =
      (Reader.manyUpTo start item ts.length ts).bind fun r => next r.1 r.2 := rfl
  have filled : ∀ i ∈ items, text i ≠ [] := fun i member empty =>
    nomatch (empty ▸ starts i member : ([] : List Token).head? = some start)
  rw [step, List.append_assoc, manyUpTo_flatMap each starts ends ne, Option.bind_some, after]
  rw [List.length_append]
  exact Nat.le_add_right_of_le (length_le_flatMap filled)

/-- Items among commas are taken up to the first token that is no comma. -/
theorem list_bind {items : List ι} {next : List α → Reader β} (filled : items ≠ [])
    (each : ∀ i ∈ items, Reads item (text i) (value i)) (ends : later.head? = some other)
    (ne : other ≠ .mark ',') (after : Reads (next (items.map value)) later b) :
    Reads (Reader.list item >>= next) (joinTokens (items.map text) ++ later) b := by
  obtain ⟨i, items, rfl⟩ := List.exists_cons_of_ne_nil filled
  rw [List.forall_mem_cons] at each
  rw [Reader.list, List.map_cons, joinTokens, List.flatMap_map, List.append_assoc]
  simp only [bind_assoc, pure_bind]
  apply bind each.1
  refine many_bind (fun i member => ?_) (fun i _ => rfl) ends ne after
  rw [← List.singleton_append]
  exact expect_bind (by decide) (each.2 i member)

theorem repeatedUpTo_flatMap {items : List ι} {count : Nat}
    (each : ∀ i ∈ items, Reads item (text i) (value i)) {rest : List Token}
    (stops : item rest = none) (enough : items.length ≤ count) :
    Reader.repeatedUpTo item count (items.flatMap text ++ rest) =
      some (items.map value, rest) := by
  induction items generalizing count with
  | nil =>
    cases count with
    | zero => rfl
    | succ count =>
      rw [List.flatMap_nil, List.nil_append, Reader.repeatedUpTo, stops]
      rfl
  | cons i items ih =>
    rw [List.forall_mem_cons] at each
    obtain ⟨count, rfl⟩ := Nat.exists_eq_add_one_of_ne_zero
      (Nat.ne_of_gt (Nat.lt_of_lt_of_le (Nat.succ_pos items.length) enough))
    rw [List.flatMap_cons, List.append_assoc, Reader.repeatedUpTo, each.1]
    dsimp only
    rw [ih each.2 (Nat.le_of_succ_le_succ enough)]
    rfl

/-- Items are taken up to the first place where none can be taken. -/
theorem repeated_bind {items : List ι} {next : List α → Reader β}
    (each : ∀ i ∈ items, Reads item (text i) (value i)) (filled : ∀ i ∈ items, text i ≠ [])
    (stops : ∀ rest, item (later ++ rest) = none)
    (after : Reads (next (items.map value)) later b) :
    Reads (Reader.repeated item >>= next) (items.flatMap text ++ later) b := by
  intro rest
  have step (ts : List Token) : (Reader.repeated item >>= next) ts =
      (Reader.repeatedUpTo item ts.length ts).bind fun r => next r.1 r.2 := rfl
  rw [step, List.append_assoc, repeatedUpTo_flatMap each (stops rest), Option.bind_some, after]
  rw [List.length_append]
  exact Nat.le_add_right_of_le (length_le_flatMap filled)

end Reads

end DecodeTables.Emitted
