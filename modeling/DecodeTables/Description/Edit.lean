import DecodeTables.Description

/-!
# Editing descriptions

A description that is kept by a program is edited in place. `Description.edit` gives the answer to an
edit and the description behind it.
-/

namespace DecodeTables

/-- A change of a description. -/
inductive Edit where
  /-- Append an entry under an identifier that is not listed yet. -/
  | insert (id : String) (entry : Entry)
  /-- Change the entry of an identifier, if there is one. -/
  | modify (id : String) (change : Entry → Entry)

namespace Description

variable (d : Description)

/-- Carries out an edit. The answer is whether there was an entry to append or to change; an edit that
is refused leaves the description as it was. -/
def edit : Edit → Except DescriptionError Bool × Description
  | .insert id entry =>
    match d.insert id entry with
    | .ok appended => (.ok true, appended)
    | .error e => (.error e, d)
  | .modify id change => (.ok (d.get? id).isSome, d.modify id change)

/-- Carries out edits in order. -/
def editAll (edits : List Edit) : Description := edits.foldl (fun d e => (d.edit e).2) d

end Description

end DecodeTables
