import DecodeTables.Description.Members
import Mathlib.Data.List.Count

/-!
# What the members of an entry write

Members write an entry if each name that the entry knows stands among them once, or not at all where
it may be missing, and its value is what the entry says (`Entry.WrittenBy`). The order of the members
does not matter, and neither do members with other names. Reading gives an entry exactly if the
members write it (`Entry.ofMembers_eq_some_iff`).
-/

namespace DecodeTables.Entry

variable {α : Type} {text : α → Option String} {texts : α → Option (List String)}
  {members : List (String × α)} {name content : String} {contents : List String} {v : α}
  {entry : Entry}

/-- A name occurs once among members, with a value. -/
def Sole (members : List (String × α)) (name : String) (v : α) : Prop :=
  (name, v) ∈ members ∧ (members.map Prod.fst).count name = 1

/-- The member of a name, which is there once, is a text. -/
def WritesText (text : α → Option String) (members : List (String × α)) (name content : String) :
    Prop :=
  ∃ v, Sole members name v ∧ text v = some content

/-- The member of a name, which is there once, is a list of texts, or there is none and the list is
empty. -/
def WritesTexts (texts : α → Option (List String)) (members : List (String × α)) (name : String)
    (contents : List String) : Prop :=
  (∃ v, Sole members name v ∧ texts v = some contents) ∨
    name ∉ members.map Prod.fst ∧ contents = []

/-- Members write an entry, in whatever order and among whatever other members. -/
structure WrittenBy (text : α → Option String) (texts : α → Option (List String))
    (members : List (String × α)) (entry : Entry) : Prop where
  encoding : WritesText text members "encoding" entry.encoding
  variableFields : WritesTexts texts members "variable_fields" entry.variableFields
  extensions : WritesTexts texts members "extension" entry.extensions
  value : WritesText text members "match" entry.value
  mask : WritesText text members "mask" entry.mask

theorem count_eq_length_filter (members : List (String × α)) (name : String) :
    (members.map Prod.fst).count name = (members.filter fun m => m.1 == name).length := by
  rw [List.count, List.countP_map, List.countP_eq_length_filter]
  rfl

theorem filter_eq_singleton_iff : (members.filter fun m => m.1 == name) = [(name, v)] ↔
    Sole members name v := by
  rw [Sole, count_eq_length_filter]
  constructor
  · intro single
    have listed : (name, v) ∈ members.filter fun m => m.1 == name := by simp [single]
    exact ⟨(List.mem_filter.mp listed).1, by rw [single, List.length_singleton]⟩
  · intro sole
    rcases sole with ⟨listed, single⟩
    obtain ⟨m, single⟩ := List.length_eq_one_iff.mp single
    have kept : (name, v) ∈ members.filter fun m => m.1 == name :=
      List.mem_filter.mpr ⟨listed, beq_self_eq_true name⟩
    rw [single, List.mem_singleton] at kept
    rw [single, kept]

theorem filter_eq_nil_iff : (members.filter fun m => m.1 == name) = [] ↔
    name ∉ members.map Prod.fst := by
  rw [← List.count_eq_zero, count_eq_length_filter, List.length_eq_zero_iff]

theorem member?_eq_none_iff : member? members name = some none ↔ name ∉ members.map Prod.fst := by
  rw [← filter_eq_nil_iff, member?]
  cases members.filter fun m => m.1 == name with
  | nil => simp
  | cons m later => cases later <;> simp

theorem member?_eq_some_iff : member? members name = some (some v) ↔ Sole members name v := by
  rw [← filter_eq_singleton_iff, member?]
  split
  · rename_i none
    simp [none]
  · rename_i m single
    have own : m.1 = name := by
      have listed : m ∈ members.filter fun m => m.1 == name := by simp [single]
      exact beq_iff_eq.mp (List.mem_filter.mp listed).2
    rw [single, ← own]
    simp [Prod.ext_iff]
  · rename_i ne_nil ne_single
    exact iff_of_false (by simp) (ne_single (name, v))

theorem textMember_eq_some_iff :
    textMember text members name = some content ↔ WritesText text members name content := by
  have read : textMember text members name = (member? members name).join.bind text := rfl
  rw [read, Option.bind_eq_some_iff]
  simp only [Option.join_eq_some_iff, member?_eq_some_iff, WritesText]

theorem textsMember_eq_some_iff :
    textsMember texts members name = some contents ↔ WritesTexts texts members name contents := by
  have read : textsMember texts members name =
      (member? members name).bind fun found => found.elim (some []) texts := by
    rw [textsMember]
    refine congrArg _ (funext fun found => ?_)
    cases found <;> rfl
  rw [read, Option.bind_eq_some_iff]
  constructor
  · intro read
    rcases read with ⟨none | v, found, valued⟩
    · exact .inr ⟨member?_eq_none_iff.mp found, (Option.some.inj valued).symm⟩
    · exact .inl ⟨v, member?_eq_some_iff.mp found, valued⟩
  · intro written
    rcases written with ⟨v, sole, valued⟩ | ⟨absent, rfl⟩
    · exact ⟨some v, member?_eq_some_iff.mpr sole, valued⟩
    · exact ⟨none, member?_eq_none_iff.mpr absent, rfl⟩

theorem ofMembers_eq_some_iff :
    ofMembers text texts members = some entry ↔ WrittenBy text texts members entry := by
  obtain ⟨encoding, variableFields, extensions, value, mask⟩ := entry
  simp only [ofMembers, bind, Option.bind_eq_some_iff, textMember_eq_some_iff,
    textsMember_eq_some_iff]
  constructor
  · intro read
    rcases read with ⟨_, encoding, _, variableFields, _, extensions, _, value, _, mask, same⟩
    cases same
    exact ⟨encoding, variableFields, extensions, value, mask⟩
  · intro written
    rcases written with ⟨encoding, variableFields, extensions, value, mask⟩
    exact ⟨_, encoding, _, variableFields, _, extensions, _, value, _, mask, rfl⟩

end DecodeTables.Entry
