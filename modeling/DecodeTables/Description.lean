/-!
# Descriptions

A `Description` lists the entries of a document under distinct identifiers, in document order.
Numbers given to instructions later follow that order, so nothing here changes it: `insert` appends
or fails, and `modify` keeps every identifier where it is.
-/

namespace DecodeTables

/-- One instruction as a document writes it. -/
structure Entry where
  encoding : String
  variableFields : List String := []
  extensions : List String := []
  /-- The literal bits, in hexadecimal. -/
  value : String
  /-- The mask of the literal bits, in hexadecimal. -/
  mask : String
  deriving DecidableEq, Repr

/-- Why there is no description. -/
inductive DescriptionError where
  /-- The file cannot be read, or is not UTF-8. -/
  | unreadable
  | invalidJson
  | invalidYaml
  /-- The file's name does not tell its format. -/
  | unknownFormat (quotedPath : String)
  | empty
  | duplicate (id : String)
  deriving DecidableEq, Repr

def DescriptionError.message : DescriptionError → String
  | unreadable => "failed to read the description"
  | invalidJson => "invalid JSON description"
  | invalidYaml => "invalid YAML description"
  | unknownFormat path =>
      s!"cannot infer description format of {path} (expected .json, .yaml or .yml)"
  | empty => "description contains no instructions"
  | duplicate id => s!"identifier `{id}` is listed more than once"

/-- Entries under distinct identifiers, in the order in which they came. -/
structure Description where
  entries : List (String × Entry)
  nodup : (entries.map Prod.fst).Nodup

namespace Description

variable (d : Description)

def empty : Description := ⟨[], by simp⟩

def ids : List String := d.entries.map Prod.fst

def size : Nat := d.entries.length

def isEmpty : Bool := d.entries.isEmpty

def get? (id : String) : Option Entry := d.entries.lookup id

/-- Appends an entry; an identifier that is present already keeps its entry. -/
def insert (id : String) (entry : Entry) : Except DescriptionError Description :=
  if h : id ∈ d.ids then .error (.duplicate id)
  else .ok ⟨d.entries ++ [(id, entry)], by
    have hn := d.nodup
    simp only [ids] at h
    simp only [List.map_append, List.map_cons, List.map_nil, List.nodup_append]
    exact ⟨hn, by simp, fun a ha b hb => by
      simp only [List.mem_singleton] at hb
      subst hb
      exact fun e => h (e ▸ ha)⟩⟩

/-- Changes the entry of an identifier. -/
def modify (id : String) (f : Entry → Entry) : Description where
  entries := d.entries.map fun e => if e.1 = id then (e.1, f e.2) else e
  nodup := by
    have h : (d.entries.map fun e => if e.1 = id then (e.1, f e.2) else e).map Prod.fst =
        d.entries.map Prod.fst := by
      rw [List.map_map]
      refine List.map_congr_left fun e _ => ?_
      simp only [Function.comp]
      split <;> rfl
    rw [h]
    exact d.nodup

/-- Inserts entries one by one. -/
def insertAll (entries : List (String × Entry)) : Except DescriptionError Description :=
  entries.foldlM (fun d e => d.insert e.1 e.2) d

/-- The description of the entries that a document lists; there must be one at least. -/
def ofEntries (entries : List (String × Entry)) : Except DescriptionError Description :=
  (empty.insertAll entries).bind fun d => if d.isEmpty then .error .empty else .ok d

end Description

end DecodeTables
