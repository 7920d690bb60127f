import Mathlib.Data.List.Forall2

/-!
# Passes that may fail

A pass over a list ends with the first error. `foldlM_invariant` is the induction over such a pass:
what holds of the items so far is kept by each step. `exists_foldlM` is its counterpart: the pass
gets to the end if each step can be taken where the invariant holds. What a pass leaves that maps each
item is told item by item (`mapM_eq_ok_iff`, and `mapM_eq_some_iff` for options). A pass that fails
has the error of the first item at fault (`foldlM_eq_error_iff`, `mapM_eq_error_iff`,
`forM_eq_error_iff`). `EndsAlike` relates the ends of two runs.
-/

namespace DecodeTables

variable {ε α β γ : Type}

theorem bind_eq_ok {x : Except ε α} {f : α → Except ε β} {b : β} :
    (x >>= f) = .ok b ↔ ∃ a, x = .ok a ∧ f a = .ok b := by
  cases x <;> simp [bind, Except.bind]

theorem bind_eq_error {x : Except ε α} {f : α → Except ε β} {e : ε} :
    (x >>= f) = .error e ↔ x = .error e ∨ ∃ a, x = .ok a ∧ f a = .error e := by
  cases x <;> simp [bind, Except.bind]

theorem exists_of_isOk {x : Except ε α} (isOk : x.isOk = true) : ∃ a, x = .ok a := by
  cases x with
  | ok a => exact ⟨a, rfl⟩
  | error e => cases isOk

/-- What holds before the first item and is kept by every step holds after the last. -/
theorem foldlM_invariant (Holds : List α → β → Prop) {step : β → α → Except ε β} {start : β}
    (first : Holds [] start)
    (keep : ∀ done item b b', Holds done b → step b item = .ok b' → Holds (done ++ [item]) b')
    {items : List α} {result : β} (run : items.foldlM step start = .ok result) :
    Holds items result := by
  suffices general : ∀ (items done : List α) (b : β), Holds done b →
      items.foldlM step b = .ok result → Holds (done ++ items) result from
    general items [] start first run
  intro items
  induction items with
  | nil =>
    intro done b holds run
    rw [List.append_nil, ← Except.ok.inj run]
    exact holds
  | cons item rest ih =>
    intro done b holds run
    rw [List.foldlM_cons, bind_eq_ok] at run
    obtain ⟨b', stepped, run⟩ := run
    have kept := ih (done ++ [item]) b' (keep done item b b' holds stepped) run
    rwa [List.append_assoc] at kept

/-- A pass gets to its end if every step can be taken that it may come to. -/
theorem exists_foldlM (Holds : List α → β → Prop) {step : β → α → Except ε β} {start : β}
    (first : Holds [] start)
    (keep : ∀ done item b b', Holds done b → step b item = .ok b' → Holds (done ++ [item]) b')
    {items : List α}
    (advance : ∀ done item rest b, items = done ++ item :: rest → Holds done b →
      ∃ b', step b item = .ok b') :
    ∃ result, items.foldlM step start = .ok result := by
  suffices general : ∀ (rest done : List α) (b : β), items = done ++ rest → Holds done b →
      ∃ result, rest.foldlM step b = .ok result from general items [] start rfl first
  intro rest
  induction rest with
  | nil => exact fun _ b _ _ => ⟨b, rfl⟩
  | cons item rest ih =>
    intro done b split holds
    obtain ⟨b', stepped⟩ := advance done item rest b split holds
    rw [List.append_cons] at split
    obtain ⟨result, run⟩ := ih (done ++ [item]) b' split (keep done item b b' holds stepped)
    exact ⟨result, by rw [List.foldlM_cons, bind_eq_ok]; exact ⟨b', stepped, run⟩⟩

/-! ## Results item by item

A pass that maps each item gives one result for each, so what it gives is a relation of lists. -/

section Items

variable {R : α → β → Prop} {items : List α}

theorem list_forall₂_congr {S : α → β → Prop} (same : ∀ a b, R a b ↔ S a b) {results : List β} :
    List.Forall₂ R items results ↔ List.Forall₂ S items results :=
  ⟨.imp fun a b => (same a b).mp, .imp fun a b => (same a b).mpr⟩

/-- Items that are related to values one by one are mapped to the same as these. -/
theorem forall₂_eq_iff {f : α → γ} {g : β → γ} {results : List β} :
    List.Forall₂ (fun a b => f a = g b) items results ↔ items.map f = results.map g := by
  rw [← List.forall₂_eq_eq_eq, List.forall₂_map_left_iff, List.forall₂_map_right_iff]

theorem exists_forall₂_iff :
    (∃ results, List.Forall₂ R items results) ↔ ∀ a ∈ items, ∃ b, R a b := by
  induction items with
  | nil => exact ⟨fun _ _ member => absurd member List.not_mem_nil, fun _ => ⟨[], .nil⟩⟩
  | cons item rest ih =>
    rw [List.forall_mem_cons, ← ih]
    simp only [List.forall₂_cons_left_iff]
    constructor
    · intro listed
      rcases listed with ⟨_, head, tail, related, others, -⟩
      exact ⟨⟨head, related⟩, tail, others⟩
    · intro each
      rcases each with ⟨⟨head, related⟩, tail, others⟩
      exact ⟨head :: tail, head, tail, related, others, rfl⟩

theorem forall₂_comp_iff {S : β → γ → Prop} {results : List γ} :
    List.Forall₂ (fun a c => ∃ b, R a b ∧ S b c) items results ↔
      ∃ middle, List.Forall₂ R items middle ∧ List.Forall₂ S middle results := by
  constructor
  · intro linked
    induction linked with
    | nil => exact ⟨[], .nil, .nil⟩
    | cons link _ ih =>
      obtain ⟨b, first, second⟩ := link
      obtain ⟨middle, firsts, seconds⟩ := ih
      exact ⟨b :: middle, .cons first firsts, .cons second seconds⟩
  · intro linked
    rcases linked with ⟨middle, firsts, seconds⟩
    induction firsts generalizing results with
    | nil => exact List.forall₂_nil_left_iff.mpr (List.forall₂_nil_left_iff.mp seconds)
    | cons first _ ih =>
      cases seconds with
      | cons second seconds => exact .cons ⟨_, first, second⟩ (ih seconds)

theorem mapM_eq_ok_iff {f : α → Except ε β} {results : List β} :
    items.mapM f = .ok results ↔ List.Forall₂ (fun a b => f a = .ok b) items results := by
  induction items generalizing results with
  | nil =>
    rw [List.forall₂_nil_left_iff]
    exact ⟨fun run => (Except.ok.inj run).symm, fun same => same ▸ rfl⟩
  | cons item rest ih =>
    simp only [List.mapM_cons, bind_eq_ok, ih, List.forall₂_cons_left_iff]
    constructor
    · intro passed
      obtain ⟨head, mapped, tail, run, same⟩ := passed
      exact ⟨head, tail, mapped, run, (Except.ok.inj same).symm⟩
    · intro passed
      obtain ⟨head, tail, mapped, run, same⟩ := passed
      exact ⟨head, mapped, tail, run, same ▸ rfl⟩

/-- A pass that maps each item gets to its end if it can map each. -/
theorem exists_mapM_iff {f : α → Except ε β} :
    (∃ results, items.mapM f = .ok results) ↔ ∀ a ∈ items, ∃ b, f a = .ok b := by
  simp only [mapM_eq_ok_iff, exists_forall₂_iff]

theorem length_of_mapM {f : α → Except ε β} {results : List β}
    (run : items.mapM f = .ok results) : results.length = items.length :=
  (mapM_eq_ok_iff.mp run).length_eq.symm

/-- Each place of the result comes from the same place of the list. -/
theorem getElem?_of_mapM {f : α → Except ε β} {results : List β}
    (run : items.mapM f = .ok results) (n : Nat) (b : β) :
    results[n]? = some b ↔ ∃ a, items[n]? = some a ∧ f a = .ok b := by
  have same := congrArg (·[n]?) (forall₂_eq_iff.mp (mapM_eq_ok_iff.mp run))
  simp only [List.getElem?_map] at same
  rw [← Option.map_eq_some_iff, same]
  simp

theorem mapM_eq_some_iff {f : α → Option β} {results : List β} :
    items.mapM f = some results ↔ List.Forall₂ (fun a b => f a = some b) items results := by
  induction items generalizing results with
  | nil =>
    rw [List.forall₂_nil_left_iff]
    exact ⟨fun run => (Option.some.inj run).symm, fun same => same ▸ rfl⟩
  | cons item rest ih =>
    simp only [List.mapM_cons, bind, Option.bind_eq_some_iff, ih, List.forall₂_cons_left_iff]
    constructor
    · intro passed
      rcases passed with ⟨head, mapped, tail, run, same⟩
      exact ⟨head, tail, mapped, run, (Option.some.inj same).symm⟩
    · intro passed
      rcases passed with ⟨head, tail, mapped, run, same⟩
      exact ⟨head, mapped, tail, run, same ▸ rfl⟩

theorem exists_mapM_eq_some_iff {f : α → Option β} :
    (∃ results, items.mapM f = some results) ↔ ∀ a ∈ items, ∃ b, f a = some b := by
  simp only [mapM_eq_some_iff, exists_forall₂_iff]

/-- The results are those of the items. -/
theorem mem_of_mapM_eq_some {f : α → Option β} {results : List β}
    (run : items.mapM f = some results) {b : β} : b ∈ results ↔ ∃ a ∈ items, f a = some b := by
  have same := forall₂_eq_iff.mp (mapM_eq_some_iff.mp run)
  rw [← List.mem_map, same]
  simp

end Items

/-! ## Failures

What is wrong with an item may depend on the items in front of it. So a fault is a relation between
those, the item and an error, and a pass fails with the first fault that it comes to. -/

/-- No item of a list is at fault, given those in front of it. -/
def Faultless (Fault : List α → α → ε → Prop) (items : List α) : Prop :=
  ∀ front item back, items = front ++ item :: back → ∀ e, ¬ Fault front item e

/-- The first item of a list to be at fault, given those in front of it, has this error. -/
def FirstFault (Fault : List α → α → ε → Prop) (items : List α) (e : ε) : Prop :=
  ∃ front item back, items = front ++ item :: back ∧ Faultless Fault front ∧ Fault front item e

variable {Fault Fault' : List α → α → ε → Prop} {items : List α} {e : ε}

/-- Where the front does not matter, no item is at fault if none is on its own. -/
theorem faultless_iff_forall_mem {Bad : α → ε → Prop} :
    Faultless (fun _ => Bad) items ↔ ∀ a ∈ items, ∀ e, ¬ Bad a e := by
  constructor
  · intro faultless a member
    obtain ⟨front, back, split⟩ := List.append_of_mem member
    exact faultless front a back split
  · intro sound front item back split
    exact sound item (split ▸ List.mem_append_right front List.mem_cons_self)

/-- Two faults that agree on the items of a list have the same first one. -/
theorem firstFault_congr
    (agree : ∀ front item back, items = front ++ item :: back →
      ∀ e, Fault front item e ↔ Fault' front item e) :
    FirstFault Fault items e ↔ FirstFault Fault' items e := by
  refine exists_congr fun front => exists_congr fun item => exists_congr fun back =>
    and_congr_right fun split => and_congr ?_ (agree front item back split e)
  refine forall_congr' fun before => forall_congr' fun other => forall_congr' fun between =>
    imp_congr_right fun within => forall_congr' fun e => not_congr ?_
  refine agree before other (between ++ item :: back) ?_ e
  rw [split, within, List.append_assoc, List.cons_append]

theorem faultless_map {g : β → α} {items : List β} : Faultless Fault (items.map g) ↔
    Faultless (fun front b => Fault (front.map g) (g b)) items := by
  constructor
  · intro faultless front b back split
    refine faultless (front.map g) (g b) (back.map g) ?_
    rw [split, List.map_append, List.map_cons]
  · intro faultless front a back split
    obtain ⟨front, rest, rfl, rfl, others⟩ := List.map_eq_append_iff.mp split
    obtain ⟨b, back, rfl, rfl, -⟩ := List.map_eq_cons_iff.mp others
    exact faultless front b back rfl

theorem firstFault_map {g : β → α} {items : List β} : FirstFault Fault (items.map g) e ↔
    FirstFault (fun front b => Fault (front.map g) (g b)) items e := by
  constructor
  · intro first
    obtain ⟨front, a, back, split, faultless, fault⟩ := first
    obtain ⟨front, rest, rfl, rfl, others⟩ := List.map_eq_append_iff.mp split
    obtain ⟨b, back, rfl, rfl, -⟩ := List.map_eq_cons_iff.mp others
    exact ⟨front, b, back, rfl, faultless_map.mp faultless, fault⟩
  · intro first
    obtain ⟨front, b, back, split, faultless, fault⟩ := first
    refine ⟨front.map g, g b, back.map g, ?_, faultless_map.mpr faultless, fault⟩
    rw [split, List.map_append, List.map_cons]

section Passes

variable (Holds : List α → β → Prop) {step : β → α → Except ε β} {start : β}
  (first : Holds [] start)
  (keep : ∀ done item b b', Holds done b → step b item = .ok b' → Holds (done ++ [item]) b')
  (fails : ∀ done item b e, Holds done b → (step b item = .error e ↔ Fault done item e))
include first keep fails

/-- A pass gets to its end if no item is at fault. -/
theorem exists_foldlM_iff : (∃ b, items.foldlM step start = .ok b) ↔ Faultless Fault items := by
  constructor
  · intro ended front item back split e fault
    obtain ⟨b, run⟩ := ended
    rw [split, List.foldlM_append, bind_eq_ok] at run
    obtain ⟨b, run, rest⟩ := run
    have failed := (fails front item b e (foldlM_invariant Holds first keep run)).mpr fault
    rw [List.foldlM_cons, failed] at rest
    cases rest
  · intro faultless
    refine exists_foldlM Holds first keep fun front item back b split holds => ?_
    cases stepped : step b item with
    | ok b' => exact ⟨b', rfl⟩
    | error e => exact absurd ((fails front item b e holds).mp stepped) (faultless _ _ _ split e)

/-- A pass that does not get to its end fails with the first fault. -/
theorem foldlM_eq_error_iff : items.foldlM step start = .error e ↔ FirstFault Fault items e := by
  constructor
  · -- The run is followed up to the step that fails, with the items in front of it as `done`.
    suffices general : ∀ (rest done : List α) (b : β), done.foldlM step start = .ok b →
        rest.foldlM step b = .error e → ∃ front item back, done ++ rest = front ++ item :: back ∧
          Faultless Fault front ∧ Fault front item e from general items [] start rfl
    intro rest
    induction rest with
    | nil =>
      intro _ _ _ failed
      cases failed
    | cons item rest ih =>
      intro done b run failed
      have holds := foldlM_invariant Holds first keep run
      rw [List.foldlM_cons, bind_eq_error] at failed
      rcases failed with failed | ⟨b', stepped, failed⟩
      · exact ⟨done, item, rest, rfl, (exists_foldlM_iff Holds first keep fails).mp ⟨b, run⟩,
          (fails done item b e holds).mp failed⟩
      · have longer : (done ++ [item]).foldlM step start = .ok b' := by
          rw [List.foldlM_append, bind_eq_ok]
          exact ⟨b, run, by rw [List.foldlM_cons, stepped]; rfl⟩
        simpa only [List.append_assoc, List.singleton_append] using ih _ b' longer failed
  · intro reached
    obtain ⟨front, item, back, split, faultless, fault⟩ := reached
    obtain ⟨b, run⟩ := (exists_foldlM_iff Holds first keep fails).mpr faultless
    have failed := (fails front item b e (foldlM_invariant Holds first keep run)).mpr fault
    rw [split, List.foldlM_append, bind_eq_error]
    refine .inr ⟨b, run, ?_⟩
    rw [List.foldlM_cons, failed]
    rfl

end Passes

/-- A pass that maps each item fails with the error of the first that it cannot map. -/
theorem mapM_eq_error_iff {f : α → Except ε β} :
    items.mapM f = .error e ↔ FirstFault (fun _ a e => f a = .error e) items e := by
  constructor
  · intro failed
    induction items with
    | nil => cases failed
    | cons item rest ih =>
      rw [List.mapM_cons, bind_eq_error] at failed
      rcases failed with failed | ⟨head, mapped, failed⟩
      · exact ⟨[], item, rest, rfl, faultless_iff_forall_mem.mpr (by simp), failed⟩
      · rw [bind_eq_error] at failed
        rcases failed with failed | ⟨_, _, ⟨⟩⟩
        obtain ⟨front, a, back, split, faultless, failed⟩ := ih failed
        rw [faultless_iff_forall_mem] at faultless
        refine ⟨item :: front, a, back, congrArg (item :: ·) split, ?_, failed⟩
        refine faultless_iff_forall_mem.mpr (List.forall_mem_cons.mpr ⟨fun e failed => ?_, faultless⟩)
        cases mapped.symm.trans failed
  · intro first
    obtain ⟨front, a, back, split, faultless, failed⟩ := first
    have sound : ∀ b ∈ front, ∃ c, f b = .ok c := by
      intro b member
      cases mapped : f b with
      | ok c => exact ⟨c, rfl⟩
      | error e => exact absurd mapped (faultless_iff_forall_mem.mp faultless b member e)
    obtain ⟨results, run⟩ := exists_mapM_iff.mpr sound
    rw [split, List.mapM_append, bind_eq_error]
    refine .inr ⟨results, run, ?_⟩
    rw [List.mapM_cons, failed]
    rfl

/-! ## Passes without results -/

/-- A pass that only checks each item maps it to nothing. -/
theorem forM_eq_map_mapM {f : α → Except ε Unit} :
    items.forM f = (items.mapM f).map fun _ => () := by
  induction items with
  | nil => rfl
  | cons item rest ih =>
    have step : (item :: rest).forM f = f item >>= fun _ => rest.forM f := rfl
    rw [step, List.mapM_cons, ih]
    cases f item with
    | error e => rfl
    | ok _ => cases rest.mapM f <;> rfl

theorem forM_eq_ok_iff {f : α → Except ε Unit} :
    items.forM f = .ok () ↔ ∀ a ∈ items, f a = .ok () := by
  have ended : (items.mapM f).map (fun _ => ()) = .ok () ↔
      ∃ results, items.mapM f = .ok results := by
    cases items.mapM f with
    | ok results => exact ⟨fun _ => ⟨results, rfl⟩, fun _ => rfl⟩
    | error e => simp [Except.map]
  rw [forM_eq_map_mapM, ended, exists_mapM_iff]
  refine forall₂_congr fun a _ => ?_
  constructor
  · intro passed
    obtain ⟨_, passed⟩ := passed
    exact passed
  · exact fun passed => ⟨(), passed⟩

/-- A pass that checks each item fails with the error of the first that does not pass. -/
theorem forM_eq_error_iff {f : α → Except ε Unit} :
    items.forM f = .error e ↔ FirstFault (fun _ a e => f a = .error e) items e := by
  rw [forM_eq_map_mapM, ← mapM_eq_error_iff]
  cases items.mapM f with
  | ok results => simp [Except.map]
  | error e => simp [Except.map]

/-! ## Two runs -/

/-- Two runs that end alike: both with results that are related, or both with errors that are. -/
inductive EndsAlike {γ : Type} (Errors : ε → ε → Prop) (Results : α → γ → Prop) :
    Except ε α → Except ε γ → Prop
  | ok {a : α} {c : γ} (related : Results a c) : EndsAlike Errors Results (.ok a) (.ok c)
  | error {d e : ε} (related : Errors d e) : EndsAlike Errors Results (.error d) (.error e)

namespace EndsAlike

variable {γ δ : Type} {Errors : ε → ε → Prop} {Results : α → γ → Prop} {Results' : β → δ → Prop}

/-- Runs that are equal in some view of their results. -/
theorem of_map_eq {view : α → β} {x y : Except ε α} (same : x.map view = y.map view) :
    EndsAlike (· = ·) (fun a c => view a = view c) x y := by
  cases x with
  | ok a =>
    cases y with
    | ok c => exact .ok (Except.ok.inj same)
    | error e => cases same
  | error d =>
    cases y with
    | ok c => cases same
    | error e => exact .error (Except.error.inj same)

theorem mono {Errors' : ε → ε → Prop} {Results' : α → γ → Prop} {x : Except ε α} {y : Except ε γ}
    (runs : EndsAlike Errors Results x y) (errors : ∀ d e, Errors d e → Errors' d e)
    (results : ∀ a c, Results a c → Results' a c) : EndsAlike Errors' Results' x y := by
  cases runs with
  | ok related => exact .ok (results _ _ related)
  | error related => exact .error (errors _ _ related)

/-- Steps that end alike from related results may follow. -/
theorem bind {x : Except ε α} {y : Except ε γ} {f : α → Except ε β} {g : γ → Except ε δ}
    (runs : EndsAlike Errors Results x y)
    (next : ∀ a c, Results a c → EndsAlike Errors Results' (f a) (g c)) :
    EndsAlike Errors Results' (x >>= f) (y >>= g) := by
  cases runs with
  | ok related => exact next _ _ related
  | error related => exact .error related

/-- Passes over related items end alike if each step does. -/
theorem mapM {Items : α → γ → Prop} {items : List α} {others : List γ} {f : α → Except ε β}
    {g : γ → Except ε δ} (listed : List.Forall₂ Items items others)
    (step : ∀ a c, Items a c → EndsAlike Errors Results' (f a) (g c)) :
    EndsAlike Errors (List.Forall₂ Results') (items.mapM f) (others.mapM g) := by
  induction listed with
  | nil => exact .ok .nil
  | cons item _ ih =>
    rw [List.mapM_cons, List.mapM_cons]
    refine (step _ _ item).bind fun b d head => ih.bind fun results others tail => ?_
    exact .ok (.cons head tail)

end EndsAlike

end DecodeTables
