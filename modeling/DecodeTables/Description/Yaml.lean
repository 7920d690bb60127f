import DecodeTables.Description.Members
import DecodeTables.Yaml.Node

/-!
# Descriptions in YAML

A description in YAML is a mapping from identifiers to entries, which are mappings too. Any scalar is a
text, whatever it looks like. An empty plain scalar is also an empty mapping and an empty list. The
values of members that an entry does not know are not looked at.

Reading follows an alias wherever it needs the node behind it, but not more than a hundred times for
each event of the document.
-/

namespace DecodeTables

open Yaml

namespace Description

/-- Reads nodes of a document and counts the aliases that it follows. -/
abbrev Read := StateT Nat Option

/-- The node itself, or the one that an alias stands for. -/
def follow (d : Document) : Node → Read Node
  | .alias number => do
      let count ← get
      guard (count < 100 * d.events)
      set (count + 1)
      d.target? number
  | node => return node

def yamlText (d : Document) (node : Node) : Read String := do
  match ← follow d node with
  | .scalar text _ => return text
  | _ => failure

def yamlTexts (d : Document) (node : Node) : Read (List String) := do
  match ← follow d node with
  | .sequence items => items.mapM (yamlText d)
  | .scalar "" true => return []
  | _ => failure

/-- The members of a mapping with the texts of their keys. -/
def yamlMembers (d : Document) (node : Node) : Read (List (String × Node)) := do
  match ← follow d node with
  | .mapping members => members.mapM fun (key, v) => return (← yamlText d key, v)
  | .scalar "" true => return []
  | _ => failure

def yamlEntry (d : Document) (node : Node) : Read Entry := do
  Entry.ofMembers (yamlText d) (yamlTexts d) (← yamlMembers d node)

/-- The entries of a document, in order. -/
def entriesOfYaml? (d : Document) : Option (List (String × Entry)) :=
  match d.root with
  | none => some []
  | some root => StateT.run' (do
      let members ← yamlMembers d root
      members.mapM fun (id, v) => return (id, ← yamlEntry d v)) 0

def ofYaml (text : String) : Except DescriptionError Description :=
  match (Document.parse? text).bind entriesOfYaml? with
  | some entries => ofEntries entries
  | none => .error .invalidYaml

end Description

end DecodeTables
