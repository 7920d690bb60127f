/-!
# JSON values

`Value σ` is a JSON value whose strings are of type `σ`. A writer uses `Value String`. A reader meets
`Value (Option String)`: a string literal may escape half of a surrogate pair, and then it is well
formed but stands for no text. The members of an object keep their order, and names may repeat.
-/

namespace DecodeTables.Json

/-- A JSON value with strings of type `σ`; a number is its literal. -/
inductive Value (σ : Type) where
  | null
  | bool (b : Bool)
  | number (literal : String)
  | string (s : σ)
  | array (items : List (Value σ))
  | object (members : List (σ × Value σ))

namespace Value

variable {σ : Type}

def nat (n : Nat) : Value σ := .number (toString n)

def int (n : Int) : Value σ := .number (toString n)

/-- The value, or `null` if there is none. -/
def orNull {α : Type} (f : α → Value σ) : Option α → Value σ
  | some a => f a
  | none => .null

def list {α : Type} (f : α → Value σ) (items : List α) : Value σ := .array (items.map f)

end Value

end DecodeTables.Json
