import DecodeTables.Description.Members
import DecodeTables.Json.Parser

/-!
# Descriptions in JSON

A description in JSON is an object with a member for each entry. An entry is an object too, or an
array of its five values. The whole document is read before identifiers are compared.
-/

namespace DecodeTables

open Json

namespace Entry

/-- The text that a literal stands for. -/
def textOfJson? : Literal → Option String
  | .string text => text
  | _ => none

def textsOfJson? : Literal → Option (List String)
  | .array items => items.mapM textOfJson?
  | _ => none

def ofJson? : Literal → Option Entry
  | .object members => do
      let members ← members.mapM fun (name, v) => name.map fun name => (name, v)
      ofMembers textOfJson? textsOfJson? members
  | .array [encoding, variableFields, extensions, value, mask] => do
      return {
        encoding := ← textOfJson? encoding
        variableFields := ← textsOfJson? variableFields
        extensions := ← textsOfJson? extensions
        value := ← textOfJson? value
        mask := ← textOfJson? mask }
  | _ => none

end Entry

namespace Description

/-- The entries of a document, in order. -/
def entriesOfJson? : Literal → Option (List (String × Entry))
  | .object members => members.mapM fun (name, v) => do
      let id ← name
      let entry ← Entry.ofJson? v
      return (id, entry)
  | _ => none

def ofJson (text : String) : Except DescriptionError Description :=
  match (parse? text).bind entriesOfJson? with
  | some entries => ofEntries entries
  | none => .error .invalidJson

end Description

end DecodeTables
