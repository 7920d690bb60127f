import DecodeTables.Json.Token
import DecodeTables.Json.Value

/-!
# Reading JSON

`parse?` reads a text that is one JSON value and nothing else. The arrays and objects that are still
open are kept on a stack of frames, so nesting has no limit.
-/

namespace DecodeTables.Json

/-- A value as it is read: a string literal need not stand for a text. -/
abbrev Literal := Value (Option String)

/-- An array or object that is still open, with what it holds so far, last first. -/
inductive Frame where
  | array (items : List Literal)
  | object (members : List (Option String × Literal)) (name : Option String)

mutual

/-- Reads a value and what follows it. -/
def value? (stack : List Frame) : List Token → Option Literal
  | .null :: rest => close? .null stack rest
  | .bool b :: rest => close? (.bool b) stack rest
  | .number literal :: rest => close? (.number literal) stack rest
  | .string text :: rest => close? (.string text) stack rest
  | .leftBracket :: .rightBracket :: rest => close? (.array []) stack rest
  | .leftBracket :: rest => value? (.array [] :: stack) rest
  | .leftBrace :: .rightBrace :: rest => close? (.object []) stack rest
  | .leftBrace :: .string name :: .colon :: rest => value? (.object [] name :: stack) rest
  | _ => none

/-- Puts a value into the innermost frame and reads what follows. -/
def close? (v : Literal) (stack : List Frame) (tokens : List Token) : Option Literal :=
  match stack, tokens with
  | [], [] => some v
  | .array items :: stack, .comma :: rest => value? (.array (v :: items) :: stack) rest
  | .array items :: stack, .rightBracket :: rest => close? (.array (v :: items).reverse) stack rest
  | .object members name :: stack, .comma :: .string next :: .colon :: rest =>
      value? (.object ((name, v) :: members) next :: stack) rest
  | .object members name :: stack, .rightBrace :: rest =>
      close? (.object ((name, v) :: members).reverse) stack rest
  | _, _ => none

end

def parse? (text : String) : Option Literal := (Token.scan? text).bind (value? [])

end DecodeTables.Json
