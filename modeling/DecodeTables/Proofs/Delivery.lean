import DecodeTables.Description.Json
import DecodeTables.Proofs.Aliases
import DecodeTables.Proofs.Except

/-!
# What documents deliver

A document delivers one pair for each member at its top, in order: the text of the name, and the entry
that the value writes (`Json.Delivers`, `Yaml.Delivers`). No member is passed over, put together with
another or moved, also where a name comes twice, and if some member is no entry, nothing is delivered.
This is just what is read of a document (`Json.delivers_iff`, `Yaml.delivers_iff`).
-/

namespace DecodeTables

variable {text : String} {entry : Entry} {entries : List (String × Entry)}

/-! ## Documents in JSON -/

namespace Json

open Description Entry

/-- A value writes an entry by named members, or by its five values in order. -/
inductive WritesEntry : Literal → Entry → Prop
  | object (named : List (String × Literal)) (entry : Entry)
      (written : WrittenBy textOfJson? textsOfJson? named entry) :
      WritesEntry (.object (named.map fun m => (some m.1, m.2))) entry
  | array (encoding variableFields extensions value mask : Literal) (entry : Entry)
      (encoding_eq : textOfJson? encoding = some entry.encoding)
      (variableFields_eq : textsOfJson? variableFields = some entry.variableFields)
      (extensions_eq : textsOfJson? extensions = some entry.extensions)
      (value_eq : textOfJson? value = some entry.value)
      (mask_eq : textOfJson? mask = some entry.mask) :
      WritesEntry (.array [encoding, variableFields, extensions, value, mask]) entry

/-- A member writes an entry under an identifier. -/
def WritesItem (member : Option String × Literal) (item : String × Entry) : Prop :=
  member.1 = some item.1 ∧ WritesEntry member.2 item.2

/-- The pairs that a text delivers: one for each member of the object that it is. -/
def Delivers (text : String) (entries : List (String × Entry)) : Prop :=
  ∃ members, parse? text = some (.object members) ∧ List.Forall₂ WritesItem members entries

theorem named_eq_some_iff {members : List (Option String × Literal)}
    {named : List (String × Literal)} :
    (members.mapM fun (name, v) => name.map fun name => (name, v)) = some named ↔
      members = named.map fun m => (some m.1, m.2) := by
  rw [mapM_eq_some_iff, ← List.forall₂_eq_eq_eq, List.forall₂_map_right_iff]
  refine list_forall₂_congr fun member m => ?_
  obtain ⟨name, v⟩ := member
  cases name <;> simp [Prod.ext_iff]

theorem ofJson?_eq_some_iff {v : Literal} : ofJson? v = some entry ↔ WritesEntry v entry := by
  constructor
  · intro read
    unfold ofJson? at read
    split at read
    · obtain ⟨named, names, read⟩ := Option.bind_eq_some_iff.mp read
      rw [named_eq_some_iff.mp names]
      exact .object named entry (ofMembers_eq_some_iff.mp read)
    · simp only [bind, Option.bind_eq_some_iff] at read
      obtain ⟨_, encoding, _, variableFields, _, extensions, _, value, _, mask, same⟩ := read
      cases same
      exact .array _ _ _ _ _ _ encoding variableFields extensions value mask
    · cases read
  · intro written
    cases written with
    | object named entry written =>
      rw [ofJson?]
      exact Option.bind_eq_some_iff.mpr
        ⟨named, named_eq_some_iff.mpr rfl, ofMembers_eq_some_iff.mpr written⟩
    | array encoding variableFields extensions value mask entry encoding_eq variableFields_eq
        extensions_eq value_eq mask_eq =>
      simp only [ofJson?, encoding_eq, variableFields_eq, extensions_eq, value_eq, mask_eq]
      rfl

/-- An object delivers its members; no other value delivers anything. -/
theorem entriesOfJson?_eq_some_iff {v : Literal} : entriesOfJson? v = some entries ↔
    ∃ members, v = .object members ∧ List.Forall₂ WritesItem members entries := by
  cases v with
  | object members =>
    rw [entriesOfJson?, mapM_eq_some_iff]
    simp only [bind, Option.bind_eq_some_iff, ofJson?_eq_some_iff, Value.object.injEq,
      exists_eq_left']
    refine list_forall₂_congr fun member item => ?_
    obtain ⟨id, entry⟩ := item
    constructor
    · intro read
      rcases read with ⟨_, name, _, written, same⟩
      cases same
      exact ⟨name, written⟩
    · intro item
      rcases item with ⟨name, written⟩
      exact ⟨id, name, entry, written, rfl⟩
  | _ => simp [entriesOfJson?]

theorem delivers_iff :
    Delivers text entries ↔ (parse? text).bind entriesOfJson? = some entries := by
  simp only [Option.bind_eq_some_iff, entriesOfJson?_eq_some_iff]
  constructor
  · intro delivered
    rcases delivered with ⟨members, parsed, written⟩
    exact ⟨_, parsed, members, rfl, written⟩
  · intro read
    rcases read with ⟨_, parsed, members, rfl, written⟩
    exact ⟨members, parsed, written⟩

end Json

/-! ## Documents in YAML -/

namespace Yaml

open Description

namespace Document

variable (d : Document)

/-- A node writes an entry by named members. -/
def WritesEntry (node : Node) (entry : Entry) : Prop :=
  ∃ named, d.named? node = some named ∧ Entry.WrittenBy d.text? d.texts? named entry

/-- A member writes an entry under an identifier. -/
def WritesItem (member : Node × Node) (item : String × Entry) : Prop :=
  d.text? member.1 = some item.1 ∧ d.WritesEntry member.2 item.2

/-- The members at the top of a document. A document without content has none. -/
def topMembers? : Option (List (Node × Node)) := d.root.elim (some []) d.members?

variable {d} {node : Node}

theorem entryOf?_eq_some_iff : d.entryOf? node = some entry ↔ d.WritesEntry node entry := by
  simp only [entryOf?, Option.bind_eq_some_iff, Entry.ofMembers_eq_some_iff, WritesEntry]

theorem items_eq_some_iff : ((d.named? node).bind fun named =>
      named.mapM fun (id, v) => (d.entryOf? v).map fun entry => (id, entry)) = some entries ↔
    ∃ members, d.members? node = some members ∧ List.Forall₂ d.WritesItem members entries := by
  rw [named?, Option.bind_assoc, Option.bind_eq_some_iff]
  refine exists_congr fun members => and_congr_right fun _ => ?_
  -- A member is named first and its value read later, so two passes are to be joined.
  rw [Option.bind_eq_some_iff]
  simp only [mapM_eq_some_iff]
  rw [← forall₂_comp_iff]
  refine list_forall₂_congr fun member item => ?_
  obtain ⟨id, entry⟩ := item
  simp only [Option.map_eq_some_iff, entryOf?_eq_some_iff]
  constructor
  · intro read
    rcases read with ⟨_, ⟨name, named, rfl⟩, _, written, same⟩
    cases same
    exact ⟨named, written⟩
  · intro item
    rcases item with ⟨named, written⟩
    exact ⟨_, ⟨id, named, rfl⟩, entry, written, rfl⟩

end Document

/-- The pairs that a text delivers: one for each member at the top of the document that it is, if not
too many aliases are to be followed. -/
def Delivers (text : String) (entries : List (String × Entry)) : Prop :=
  ∃ d members, Document.parse? text = some d ∧ d.topMembers? = some members ∧
    List.Forall₂ d.WritesItem members entries ∧ d.aliases ≤ 100 * d.events

/-- A document delivers its members if its aliases may all be followed. -/
theorem entriesOfYaml?_eq_some_iff {d : Document} : entriesOfYaml? d = some entries ↔
    (∃ members, d.topMembers? = some members ∧ List.Forall₂ d.WritesItem members entries) ∧
      d.aliases ≤ 100 * d.events := by
  unfold entriesOfYaml? Document.aliases Document.topMembers?
  cases d.root with
  | none => simp [eq_comm]
  | some root =>
    exact (counts_items root).run'_eq_some_iff.trans (and_congr_left' Document.items_eq_some_iff)

theorem delivers_iff :
    Delivers text entries ↔ (Document.parse? text).bind entriesOfYaml? = some entries := by
  simp only [Option.bind_eq_some_iff, entriesOfYaml?_eq_some_iff]
  constructor
  · intro delivered
    rcases delivered with ⟨d, members, parsed, top, written, few⟩
    exact ⟨d, parsed, ⟨members, top, written⟩, few⟩
  · intro read
    rcases read with ⟨d, parsed, ⟨members, top, written⟩, few⟩
    exact ⟨d, members, parsed, top, written, few⟩

end Yaml

end DecodeTables
