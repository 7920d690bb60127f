import DecodeTables.Description

/-!
# Entries from members

Documents of every format write an entry as named members. A name that an entry knows may occur once;
`encoding`, `match` and `mask` must occur; members with other names are passed over.
-/

namespace DecodeTables.Entry

variable {m : Type → Type} [Monad m] [MonadLiftT Option m] {α : Type}

/-- The member of a name, if there is one. There must not be two. -/
def member? (members : List (String × α)) (name : String) : Option (Option α) :=
  match members.filter fun e => e.1 == name with
  | [] => some none
  | [e] => some (some e.2)
  | _ => none

/-- The text of the member of a name, which must be there. -/
def textMember (text : α → m String) (members : List (String × α)) (name : String) : m String := do
  text (← liftM (member? members name).join)

/-- The texts of the member of a name, if there is one. -/
def textsMember (texts : α → m (List String)) (members : List (String × α)) (name : String) :
    m (List String) := do
  match ← liftM (member? members name) with
  | some v => texts v
  | none => return []

/-- The entry with the given members, whose values are read as a text or as a list of texts. -/
def ofMembers (text : α → m String) (texts : α → m (List String)) (members : List (String × α)) :
    m Entry := do
  let encoding ← textMember text members "encoding"
  let variableFields ← textsMember texts members "variable_fields"
  let extensions ← textsMember texts members "extension"
  let value ← textMember text members "match"
  let mask ← textMember text members "mask"
  return { encoding, variableFields, extensions, value, mask }

end DecodeTables.Entry
