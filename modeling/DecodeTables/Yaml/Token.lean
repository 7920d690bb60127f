/-!
# YAML tokens

The tokens that a YAML stream is made of. Block structure is explicit: `blockEnd` closes what the
indentation closes, and every key has a `key` token in front of it.
-/

namespace DecodeTables.Yaml

inductive Token where
  | versionDirective (major minor : Nat)
  /-- Declares a handle for tags. -/
  | tagDirective (handle : String)
  | documentStart | documentEnd | streamEnd
  | blockSequenceStart | blockMappingStart | blockEnd
  | flowSequenceStart | flowSequenceEnd | flowMappingStart | flowMappingEnd
  | blockEntry | flowEntry | key | value
  | anchor (name : String)
  | alias (name : String)
  /-- A tag with the handle it uses; a verbatim tag uses the empty one. -/
  | tag (handle : String)
  /-- A scalar with its text; `plain` if it stands without quotes or block header. -/
  | scalar (text : String) (plain : Bool)
  deriving DecidableEq, Repr

end DecodeTables.Yaml
