import DecodeTables.Description.Edit
import DecodeTables.Proofs.Delivery
import DecodeTables.Proofs.FirstRepeat
import DecodeTables.Proofs.Keyed
import Mathlib

/-!
# No entry is lost

The pairs that a document delivers become a description with just these entries, in their order, or
none at all (`Description.Loads`): what is refused is an identifier that repeats an earlier one, at the
first such place. Afterwards edits keep what is there. What one edit does is told by
`Description.EditedInPlace`, and a run of edits is told without its steps: identifiers stand in the
order in which they first came (`Description.ids_editAll`), and the entry of each is what the edits of
this identifier make of it (`Description.get?_editAll`).
-/

namespace DecodeTables

/-! ## The first repetition of a key -/

section Repeats

variable {α κ ε : Type} {key : α → κ} {Fault : List α → α → ε → Prop} {items : List α} {e : ε}
  (agree : ∀ front item, (∃ e, Fault front item e) ↔ key item ∈ front.map key)
include agree

/-- Where a repeated key is the only fault, items are faultless if no two have the same key. -/
theorem faultless_iff_nodup : Faultless Fault items ↔ (items.map key).Nodup := by
  induction items using List.reverseRecOn with
  | nil => exact ⟨fun _ => .nil, fun _ front item back split => by simp at split⟩
  | append_singleton front item ih =>
    rw [faultless_concat_iff, ih, List.map_append, List.map_singleton, ← List.concat_eq_append,
      List.nodup_concat, ← agree front item, not_exists, and_comm]

/-- It is then found at the least place that repeats a key. -/
theorem firstFault_iff_repeats : FirstFault Fault items e ↔
    ∃ n item, IsLeast (repeats key items) n ∧ items[n]? = some item ∧
      Fault (items.take n) item e := by
  refine firstFault_iff_isLeast fun front item back split _ => ?_
  rw [agree, split, length_mem_repeats_iff]

end Repeats

namespace Description

variable {d d' : Description} {id other : String} {entry : Entry} {change : Entry → Entry}
  {entries : List (String × Entry)} {edit : Edit} {edits : List Edit} {e : DescriptionError}

/-! ## Loading -/

theorem eq_of_entries (same : d.entries = d'.entries) : d = d' := by
  cases d
  cases d'
  cases same
  rfl

theorem get?_eq_some_iff : d.get? id = some entry ↔ (id, entry) ∈ d.entries :=
  lookup_eq_some_iff_mem d.nodup

theorem get?_eq_none_iff : d.get? id = none ↔ id ∉ d.ids := by
  simp only [get?, List.lookup_eq_none_iff, bne_iff_ne, ids, List.mem_map, not_exists, not_and]
  exact forall₂_congr fun _ _ => ne_comm

theorem insert_eq_ok_iff :
    d.insert id entry = .ok d' ↔ id ∉ d.ids ∧ d'.entries = d.entries ++ [(id, entry)] := by
  unfold insert
  split
  · rename_i listed
    constructor
    · intro inserted
      cases inserted
    · exact fun inserted => absurd listed inserted.1
  · rename_i new
    obtain ⟨entries, nodup⟩ := d'
    simp only [Except.ok.injEq, mk.injEq, new, not_false_eq_true, true_and]
    exact eq_comm

theorem insert_eq_error_iff : d.insert id entry = .error e ↔ id ∈ d.ids ∧ e = .duplicate id := by
  unfold insert
  split
  · rename_i listed
    simp only [Except.error.injEq, listed, true_and]
    exact eq_comm
  · rename_i new
    constructor
    · intro refused
      cases refused
    · exact fun refused => absurd refused.1 new

/-- What is wrong with an entry after others: its identifier is one of theirs. -/
def Repeated (front : List (String × Entry)) (item : String × Entry) (e : DescriptionError) : Prop :=
  item.1 ∈ front.map Prod.fst ∧ e = .duplicate item.1

theorem exists_repeated_iff (front : List (String × Entry)) (item : String × Entry) :
    (∃ e, Repeated front item e) ↔ item.1 ∈ front.map Prod.fst :=
  ⟨fun repeated => repeated.elim fun _ repeated => repeated.1, fun listed => ⟨_, listed, rfl⟩⟩

/-- After some entries were inserted, the description has just these. -/
theorem entries_of_insert (done : List (String × Entry)) (item : String × Entry)
    (d d' : Description) (held : d.entries = done) (inserted : d.insert item.1 item.2 = .ok d') :
    d'.entries = done ++ [item] := by
  rw [(insert_eq_ok_iff.mp inserted).2, held]

theorem repeated_of_insert (done : List (String × Entry)) (item : String × Entry)
    (d : Description) (e : DescriptionError) (held : d.entries = done) :
    d.insert item.1 item.2 = .error e ↔ Repeated done item e := by
  rw [insert_eq_error_iff, ids, held, Repeated]

theorem entries_of_insertAll (run : empty.insertAll entries = .ok d) : d.entries = entries :=
  foldlM_invariant (fun done (d : Description) => d.entries = done) rfl entries_of_insert run

theorem exists_insertAll_iff :
    (∃ d, empty.insertAll entries = .ok d) ↔ (entries.map Prod.fst).Nodup := by
  rw [← faultless_iff_nodup exists_repeated_iff]
  exact exists_foldlM_iff (fun done (d : Description) => d.entries = done) rfl entries_of_insert
    repeated_of_insert

theorem insertAll_eq_error_iff : empty.insertAll entries = .error e ↔
    ∃ n item, IsLeast (repeats Prod.fst entries) n ∧ entries[n]? = some item ∧
      e = .duplicate item.1 := by
  have first : empty.insertAll entries = .error e ↔ FirstFault Repeated entries e :=
    foldlM_eq_error_iff (fun done (d : Description) => d.entries = done) rfl entries_of_insert
      repeated_of_insert
  rw [first, firstFault_iff_repeats exists_repeated_iff]
  refine exists_congr fun n => exists_congr fun item => and_congr_right fun least =>
    and_congr_right fun listed => and_iff_right ?_
  obtain ⟨m, before, a, b, listed', listed'', same⟩ := least.1
  obtain rfl := Option.some.inj (listed.symm.trans listed'')
  refine List.mem_map.mpr ⟨a, List.mem_iff_getElem?.mpr ⟨m, ?_⟩, same⟩
  rw [List.getElem?_take, if_pos before, listed']

theorem ofEntries_of_ne_nil (nonempty : entries ≠ []) :
    ofEntries entries = empty.insertAll entries := by
  unfold ofEntries
  cases run : empty.insertAll entries with
  | error e => rfl
  | ok d =>
    have held : d.isEmpty = false := by
      rw [isEmpty, entries_of_insertAll run]
      exact List.isEmpty_eq_false_iff.mpr nonempty
    simp only [Except.bind, held, Bool.false_eq_true, if_false]

theorem exists_ofEntries_iff :
    (∃ d, ofEntries entries = .ok d) ↔ entries ≠ [] ∧ (entries.map Prod.fst).Nodup := by
  by_cases nonempty : entries = []
  · subst nonempty
    exact iff_of_false (fun made => nomatch made) fun made => made.1 rfl
  · rw [ofEntries_of_ne_nil nonempty, exists_insertAll_iff, and_iff_right nonempty]

/-- A description is made of its own entries and of no others. -/
theorem ofEntries_eq_ok_iff : ofEntries entries = .ok d ↔ d.entries = entries ∧ entries ≠ [] := by
  have held {d : Description} (made : ofEntries entries = .ok d) :
      d.entries = entries ∧ entries ≠ [] := by
    have nonempty := (exists_ofEntries_iff.mp ⟨d, made⟩).1
    rw [ofEntries_of_ne_nil nonempty] at made
    exact ⟨entries_of_insertAll made, nonempty⟩
  refine ⟨held, fun own => ?_⟩
  obtain ⟨rfl, nonempty⟩ := own
  obtain ⟨d', made⟩ := exists_ofEntries_iff.mpr ⟨nonempty, d.nodup⟩
  rw [made, eq_of_entries (held made).1]

theorem ofEntries_eq_error_iff : ofEntries entries = .error e ↔ entries = [] ∧ e = .empty ∨
    ∃ n item, IsLeast (repeats Prod.fst entries) n ∧ entries[n]? = some item ∧
      e = .duplicate item.1 := by
  by_cases nonempty : entries = []
  · subst nonempty
    have made : ofEntries [] = .error .empty := rfl
    simp [made, eq_comm]
  · rw [ofEntries_of_ne_nil nonempty, insertAll_eq_error_iff]
    simp [nonempty]

/-! ## Documents -/

/-- How a document is loaded that delivers some pairs or, if it is invalid, none. -/
structure Loads (Delivers : List (String × Entry) → Prop) (invalid : DescriptionError)
    (loaded : Except DescriptionError Description) : Prop where
  /-- A description holds just the pairs that are delivered, in their order. -/
  holds : ∀ d, loaded = .ok d ↔ Delivers d.entries ∧ d.entries ≠ []
  succeeds : (∃ d, loaded = .ok d) ↔
    ∃ entries, Delivers entries ∧ entries ≠ [] ∧ (entries.map Prod.fst).Nodup
  empty : loaded = .error .empty ↔ Delivers []
  /-- The identifier at the first place that repeats one is refused. -/
  duplicate : ∀ id, loaded = .error (.duplicate id) ↔ ∃ entries n item, Delivers entries ∧
    IsLeast (repeats Prod.fst entries) n ∧ entries[n]? = some item ∧ id = item.1
  invalid : loaded = .error invalid ↔ ∀ entries, ¬ Delivers entries

/-- A document is loaded as it is read, in whatever format. -/
theorem loads_of_read {Delivers : List (String × Entry) → Prop}
    {read : Option (List (String × Entry))} (invalid : DescriptionError)
    (delivers : ∀ {entries}, Delivers entries ↔ read = some entries)
    (notEmpty : invalid ≠ .empty) (notDuplicate : ∀ id, invalid ≠ .duplicate id) :
    Loads Delivers invalid (read.elim (.error invalid) ofEntries) := by
  cases read with
  | none =>
    have nothing (entries) : ¬ Delivers entries := fun delivered => nomatch delivers.mp delivered
    rw [Option.elim_none]
    exact {
      holds d := iff_of_false (fun made => nomatch made) fun made => nothing _ made.1
      succeeds := iff_of_false (fun made => nomatch made) fun made => nothing _ made.choose_spec.1
      empty := iff_of_false (fun failed => notEmpty (Except.error.inj failed)) (nothing [])
      duplicate id := by
        refine iff_of_false (fun failed => notDuplicate id (Except.error.inj failed)) fun first => ?_
        obtain ⟨entries, _, _, delivered, _⟩ := first
        exact nothing entries delivered
      invalid := iff_of_true rfl nothing }
  | some entries =>
    have only {other} : Delivers other ↔ entries = other := by rw [delivers, Option.some.injEq]
    rw [Option.elim_some]
    exact {
      holds d := by
        rw [ofEntries_eq_ok_iff, only]
        grind
      succeeds := by simp only [exists_ofEntries_iff, only, exists_eq_left']
      empty := by
        rw [ofEntries_eq_error_iff, only]
        simp
      duplicate id := by
        rw [ofEntries_eq_error_iff]
        simp [only]
      invalid := by
        refine iff_of_false (fun failed => ?_) fun nothing => nothing entries (only.mpr rfl)
        rcases ofEntries_eq_error_iff.mp failed with ⟨-, same⟩ | ⟨_, item, -, -, same⟩
        · exact notEmpty same
        · exact notDuplicate item.1 same }

theorem ofJson_loads (text : String) : Loads (Json.Delivers text) .invalidJson (ofJson text) := by
  have made : ofJson text =
      ((Json.parse? text).bind entriesOfJson?).elim (.error .invalidJson) ofEntries := by
    rw [ofJson]
    cases (Json.parse? text).bind entriesOfJson? <;> rfl
  rw [made]
  exact loads_of_read .invalidJson Json.delivers_iff (by decide) fun _ => nofun

theorem ofYaml_loads (text : String) : Loads (Yaml.Delivers text) .invalidYaml (ofYaml text) := by
  have made : ofYaml text =
      ((Yaml.Document.parse? text).bind entriesOfYaml?).elim (.error .invalidYaml) ofEntries := by
    rw [ofYaml]
    cases (Yaml.Document.parse? text).bind entriesOfYaml? <;> rfl
  rw [made]
  exact loads_of_read .invalidYaml Yaml.delivers_iff (by decide) fun _ => nofun

/-! ## Editing -/

theorem edit_of_mem (listed : id ∈ d.ids) (entry : Entry) :
    d.edit (.insert id entry) = (.error (.duplicate id), d) := by
  have refused : d.insert id entry = .error (.duplicate id) :=
    insert_eq_error_iff.mpr ⟨listed, rfl⟩
  rw [edit, refused]

theorem edit_of_notMem (new : id ∉ d.ids) (entry : Entry) : ∃ d',
    d.edit (.insert id entry) = (.ok true, d') ∧ d'.entries = d.entries ++ [(id, entry)] := by
  cases inserted : d.insert id entry with
  | error e => exact absurd (insert_eq_error_iff.mp inserted).1 new
  | ok d' => exact ⟨d', by rw [edit, inserted], (insert_eq_ok_iff.mp inserted).2⟩

theorem ids_modify : (d.modify id change).ids = d.ids := by
  rw [ids, ids, modify, List.map_map]
  refine List.map_congr_left fun item _ => ?_
  rw [Function.comp_apply]
  split <;> rfl

theorem get?_modify : (d.modify id change).get? other =
    if other = id then (d.get? other).map change else d.get? other :=
  lookup_change change

end Description

/-- The identifier under which an edit appends an entry. -/
def Edit.inserted? : Edit → Option String
  | .insert id _ => some id
  | .modify _ _ => none

/-- What an edit makes of the entry of an identifier. An entry that is there is not replaced by one
that is to be appended. -/
def Edit.onEntry (id : String) (held : Option Entry) : Edit → Option Entry
  | .insert other entry => if id = other then held.or (some entry) else held
  | .modify other change => if id = other then held.map change else held

namespace Description

variable {d d' : Description} {id other : String} {edit : Edit} {edits : List Edit}

theorem editAll_append_singleton :
    d.editAll (edits ++ [edit]) = ((d.editAll edits).edit edit).2 := by
  rw [editAll, List.foldl_append, List.foldl_cons, List.foldl_nil, ← editAll]

theorem ids_insert (id : String) (entry : Entry) :
    (d.edit (.insert id entry)).2.ids = if id ∈ d.ids then d.ids else d.ids ++ [id] := by
  split
  · rename_i listed
    rw [edit_of_mem listed]
  · rename_i new
    obtain ⟨d', edited, appended⟩ := edit_of_notMem new entry
    rw [edited, ids, appended, List.map_append, ids, List.map_singleton]

theorem get?_insert (other : String) (entry : Entry) :
    (d.edit (.insert other entry)).2.get? id =
      if id = other then (d.get? id).or (some entry) else d.get? id := by
  by_cases listed : other ∈ d.ids
  · rw [edit_of_mem listed]
    split
    · rename_i own
      subst own
      have present : d.get? id ≠ none := fun none => get?_eq_none_iff.mp none listed
      obtain ⟨held, found⟩ := Option.ne_none_iff_exists'.mp present
      rw [found, Option.some_or]
    · rfl
  · obtain ⟨d', edited, appended⟩ := edit_of_notMem listed entry
    rw [edited, get?, appended, List.lookup_append, ← get?, List.lookup_cons, List.lookup_nil]
    by_cases own : id = other
    · rw [if_pos own, beq_iff_eq.mpr own]
    · rw [if_neg own, beq_eq_false_iff_ne.mpr own, Option.or_none]

/-- After a run of edits, identifiers stand in the order in which they first came. -/
theorem ids_editAll :
    (d.editAll edits).ids = (d.ids ++ edits.filterMap Edit.inserted?).eraseDups := by
  induction edits using List.reverseRecOn with
  | nil =>
    rw [List.filterMap_nil, List.append_nil]
    exact (eraseDups_eq_self d.nodup).symm
  | append_singleton edits edit ih =>
    rw [editAll_append_singleton, List.filterMap_append, ← List.append_assoc]
    cases edit with
    | modify id change =>
      have none : [Edit.modify id change].filterMap Edit.inserted? = [] := rfl
      rw [none, List.append_nil, ← ih]
      exact ids_modify
    | insert id entry =>
      have one : [Edit.insert id entry].filterMap Edit.inserted? = [id] := rfl
      rw [one, ids_insert, ih, eraseDups_append_singleton]
      simp only [List.mem_eraseDups]

theorem get?_edit : (d.edit edit).2.get? id = edit.onEntry id (d.get? id) := by
  cases edit with
  | modify other change => exact get?_modify
  | insert other entry => exact get?_insert other entry

/-- After a run of edits, the entry of an identifier is what the edits make of it one by one. -/
theorem get?_editAll : (d.editAll edits).get? id = edits.foldl (Edit.onEntry id) (d.get? id) := by
  induction edits using List.reverseRecOn with
  | nil => rfl
  | append_singleton edits edit ih =>
    rw [editAll_append_singleton, get?_edit, ih, List.foldl_append, List.foldl_cons,
      List.foldl_nil]

/-- How a description is edited. A refused insertion leaves it as it was, another one appends one
entry, and changing an entry leaves all identifiers in place and the other entries as they were. -/
structure EditedInPlace (d : Description) : Prop where
  nodup : d.ids.Nodup
  refused : ∀ id entry, id ∈ d.ids → d.edit (.insert id entry) = (.error (.duplicate id), d)
  appended : ∀ id entry, id ∉ d.ids → ∃ d',
    d.edit (.insert id entry) = (.ok true, d') ∧ d'.entries = d.entries ++ [(id, entry)]
  changed : ∀ id change, ∃ d', d.edit (.modify id change) = (.ok (d.get? id).isSome, d') ∧
    d'.ids = d.ids ∧ d'.get? id = (d.get? id).map change ∧
    ∀ other, other ≠ id → d'.get? other = d.get? other

theorem editedInPlace (d : Description) : d.EditedInPlace where
  nodup := d.nodup
  refused _ entry listed := edit_of_mem listed entry
  appended _ entry new := edit_of_notMem new entry
  changed id change := by
    refine ⟨d.modify id change, rfl, ids_modify, ?_, fun other ne => ?_⟩
    · rw [get?_modify, if_pos rfl]
    · rw [get?_modify, if_neg ne]

/-- Entries make a description if there are some and no two have the same identifier, and it has just
these, in their order. Otherwise the first identifier that comes twice is refused. So it is with the
entries that a document delivers, of which there is one for each member at its top. A description is
edited in place, whatever edits came before: identifiers stay distinct and in the order in which they
first came, and the entry of each is what the edits of this identifier made of it. -/
theorem entries_exact :
    (∀ entries, (∃ d, ofEntries entries = .ok d) ↔
      entries ≠ [] ∧ (entries.map Prod.fst).Nodup) ∧
    (∀ entries d, ofEntries entries = .ok d → d.entries = entries ∧
      ∀ id entry, d.get? id = some entry ↔ (id, entry) ∈ entries) ∧
    ofEntries [] = .error .empty ∧
    (∀ entries e, entries ≠ [] → (ofEntries entries = .error e ↔
      ∃ n item, IsLeast (repeats Prod.fst entries) n ∧ entries[n]? = some item ∧
        e = .duplicate item.1)) ∧
    (∀ text, Loads (Json.Delivers text) .invalidJson (ofJson text)) ∧
    (∀ text, Loads (Yaml.Delivers text) .invalidYaml (ofYaml text)) ∧
    ∀ (start : Description) (edits : List Edit), (start.editAll edits).EditedInPlace ∧
      (start.editAll edits).ids = (start.ids ++ edits.filterMap Edit.inserted?).eraseDups ∧
      ∀ id, (start.editAll edits).get? id = edits.foldl (Edit.onEntry id) (start.get? id) := by
  refine ⟨fun _ => exists_ofEntries_iff, fun entries d loaded => ?_, rfl,
    fun entries e nonempty => ?_, ofJson_loads, ofYaml_loads,
    fun start edits => ⟨editedInPlace _, ids_editAll, fun _ => get?_editAll⟩⟩
  · obtain ⟨held, -⟩ := ofEntries_eq_ok_iff.mp loaded
    exact ⟨held, fun _ _ => held ▸ get?_eq_some_iff⟩
  · rw [ofEntries_eq_error_iff, or_iff_right (fun none => nonempty none.1)]

/-- An entry that is short to write; whether it describes an instruction is not looked at here. -/
def subEntry : Entry where
  encoding := "-"
  variableFields := ["rd"]
  value := "0x1"
  mask := "0x3"

def addEntry : Entry := { subEntry with value := "0x2" }

/-- An object in JSON with the name `add` twice, once with named values and once with an array. -/
def repeatedName : String :=
  "\x7b\"add\":\x7b\"mask\":\"0x3\",\"match\":\"0x2\",\"note\":[1]," ++
  "\"variable_fields\":[\"rd\"],\"encoding\":\"-\"\x7d," ++
  "\"add\":[\"-\",[\"rd\"],[],\"0x1\",\"0x3\"]\x7d"

/-- A mapping in YAML whose second entry is an alias of the first. -/
def aliasedEntry : String :=
  "sub: &s \x7bencoding: '-', variable_fields: [rd], match: 0x1, mask: 0x3\x7d\nadd: *s\n"

/-- Edits that append two entries, try to replace the first and change it. -/
def sampleEdits : List Edit :=
  [.insert "sub" subEntry, .insert "add" addEntry, .insert "sub" addEntry,
    .modify "sub" fun entry => { entry with mask := "0x7f" }]

set_option maxRecDepth 1000 in
/-- Of two identifiers that come twice, the one that is met again first is refused, in a document too.
An alias is an entry like another. An entry that is there is not replaced. -/
theorem entries_exact_repeated :
    ofEntries [("sub", subEntry), ("add", addEntry), ("add", subEntry), ("sub", addEntry)] =
      .error (.duplicate "add") ∧
    ofJson repeatedName = .error (.duplicate "add") ∧
    (∃ d, ofYaml aliasedEntry = .ok d ∧ d.entries = [("sub", subEntry), ("add", subEntry)]) ∧
    (empty.editAll sampleEdits).ids = ["sub", "add"] ∧
    (empty.editAll sampleEdits).get? "sub" = some { subEntry with mask := "0x7f" } := by
  obtain ⟨-, -, -, failed, json, yaml, edited⟩ := entries_exact
  obtain ⟨-, ids, held⟩ := edited empty sampleEdits
  refine ⟨?_, ?_, ?_, ids.trans (by decide), (held "sub").trans (by decide)⟩
  · refine (failed _ _ (List.cons_ne_nil _ _)).mpr ⟨2, _, ⟨?_, fun k repeated => ?_⟩, rfl, rfl⟩
    · exact ⟨1, by decide, _, _, rfl, rfl, rfl⟩
    · obtain ⟨m, before, a, b, listed, listed', same⟩ := repeated
      by_contra small
      obtain ⟨rfl, rfl⟩ : m = 0 ∧ k = 1 := by omega
      cases listed
      cases listed'
      exact absurd same (by decide)
  · have delivered : Json.Delivers repeatedName [("add", addEntry), ("add", subEntry)] :=
      Json.delivers_iff.mpr (by cbv)
    refine ((json _).duplicate _).mpr ⟨_, 1, _, delivered, ⟨?_, fun k repeated => ?_⟩, rfl, rfl⟩
    · exact ⟨0, by decide, _, _, rfl, rfl, rfl⟩
    · obtain ⟨m, before, -⟩ := repeated
      omega
  · have delivered : Yaml.Delivers aliasedEntry [("sub", subEntry), ("add", subEntry)] :=
      Yaml.delivers_iff.mpr (by cbv)
    have distinct : (([("sub", subEntry), ("add", subEntry)] : List (String × Entry)).map
        Prod.fst).Nodup := by decide
    exact ⟨⟨_, distinct⟩, ((yaml _).holds _).mpr ⟨delivered, List.cons_ne_nil _ _⟩, rfl⟩

end Description

end DecodeTables
