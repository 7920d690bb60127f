import DecodeTables.Json.Value
import DecodeTables.Text.Hex

/-!
# Writing JSON

`compact` writes a value without blanks. `pretty` puts every item and member on a line of its own,
indented by two spaces a level; empty arrays and objects stay on one line.
-/

namespace DecodeTables.Json

open Text

/-- How a character is written in a string literal. -/
def escape (c : Char) : List Char :=
  if c = '"' || c = '\\' then ['\\', c]
  else if c = '\n' then ['\\', 'n']
  else if c = '\r' then ['\\', 'r']
  else if c = '\t' then ['\\', 't']
  else if c.toNat = 8 then ['\\', 'b']
  else if c.toNat = 12 then ['\\', 'f']
  else if c.toNat < 32 then ['\\', 'u'] ++ Hex.digitsPadded 4 c.toNat
  else [c]

/-- A text as a string literal. -/
def literal (text : String) : String :=
  String.ofList ('"' :: text.toList.flatMap escape ++ ['"'])

mutual

/-- A value without blanks. -/
def compact : Value String → String
  | .null => "null"
  | .bool true => "true"
  | .bool false => "false"
  | .number text => text
  | .string text => literal text
  | .array items => "[" ++ compactItems items ++ "]"
  | .object members => "\x7b" ++ compactMembers members ++ "\x7d"

def compactItems : List (Value String) → String
  | [] => ""
  | [v] => compact v
  | v :: rest => compact v ++ "," ++ compactItems rest

def compactMembers : List (String × Value String) → String
  | [] => ""
  | [(name, v)] => literal name ++ ":" ++ compact v
  | (name, v) :: rest => literal name ++ ":" ++ compact v ++ "," ++ compactMembers rest

end

/-- The blanks in front of a line. -/
def margin (level : Nat) : String := String.ofList (List.replicate (2 * level) ' ')

mutual

/-- A value over several lines, of which all but the first are indented to the level at least. -/
def prettyAt (level : Nat) : Value String → String
  | .null => "null"
  | .bool true => "true"
  | .bool false => "false"
  | .number text => text
  | .string text => literal text
  | .array [] => "[]"
  | .array items => "[\n" ++ prettyItems (level + 1) items ++ "\n" ++ margin level ++ "]"
  | .object [] => "\x7b\x7d"
  | .object members =>
      "\x7b\n" ++ prettyMembers (level + 1) members ++ "\n" ++ margin level ++ "\x7d"

def prettyItems (level : Nat) : List (Value String) → String
  | [] => ""
  | [v] => margin level ++ prettyAt level v
  | v :: rest => margin level ++ prettyAt level v ++ ",\n" ++ prettyItems level rest

def prettyMembers (level : Nat) : List (String × Value String) → String
  | [] => ""
  | [(name, v)] => margin level ++ literal name ++ ": " ++ prettyAt level v
  | (name, v) :: rest =>
      margin level ++ literal name ++ ": " ++ prettyAt level v ++ ",\n" ++ prettyMembers level rest

end

/-- A value over several lines. -/
def pretty (v : Value String) : String := prettyAt 0 v

end DecodeTables.Json
