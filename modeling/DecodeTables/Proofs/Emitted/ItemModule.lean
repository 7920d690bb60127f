import DecodeTables.Proofs.Emitted.DispatchModule
import DecodeTables.Proofs.Emitted.Literal

/-!
# What emitted enumerations say

An enumeration and the texts that go with it, read off the sources alone. `ItemHeader` has the items
in the order of their declaration and the cases of a function from items to texts. `CallbackTable` has
the functions that are declared and the array that they are put into. `VariantModule` has variants
with their discriminants and the arms of a match over them. Nothing here refers to the table that the
texts were made from.
-/

namespace DecodeTables.Emitted

/-- An enumeration without discriminants: an item stands for its place. -/
structure ItemHeader where
  items : List String
  /-- The item of each case, and the text that it returns. -/
  cases : List (String × String)
  deriving DecidableEq, Repr

/-- Functions and an array of them. -/
structure CallbackTable where
  declared : List String
  /-- The item that the array has as its length. -/
  bound : String
  elements : List String
  deriving DecidableEq, Repr

/-- An enumeration with discriminants. -/
structure VariantModule where
  /-- The name of each variant, and its discriminant. -/
  variants : List (String × Nat)
  count : Nat
  /-- The variant of each arm, and the literal that it answers. -/
  arms : List (String × String)
  deriving DecidableEq, Repr

namespace Reader

/-! ## Headers -/

/-- Takes a case that returns a text without blanks. -/
def itemCase : Reader (String × String) := do
  expect "case"
  let item ← word
  expect ": return \""
  let text ← word
  expect "\";"
  return (item, text)

/-- How the switch over an enumeration begins. -/
def switchText : String :=
  "\x7d; inline const char *enum_to_str(InstrID id) noexcept \x7b switch (id) \x7b"

def itemHeader : Reader ItemHeader := do
  expect "enum InstrID \x7b"
  let items ← list word
  expect switchText
  let cases ← many (.word "case") itemCase
  expect "default: std::unreachable(); \x7d \x7d"
  return { items, cases }

/-! ## Callbacks -/

/-- The names among commas; there may be none. -/
def names? : List Token → Option (List String)
  | [] => some []
  | [.word name] => some [name]
  | .word name :: .mark ',' :: rest => (names? rest).map (name :: ·)
  | _ => none

/-- Takes the declaration of a function. -/
def declaration : Reader String := do
  expect "static bool"
  let name ← word
  expect "(Hart &h, const Instruction &instr);"
  return name

def callbackTable : Reader CallbackTable := do
  let declared ← repeated declaration
  expect "static constexpr std::array<callback_type, InstrID::"
  let bound ← word
  expect "> kCallbacks_ = \x7b"
  let elements ← names? (← upTo '\x7d')
  expect ";"
  return { declared, bound, elements }

/-! ## Variants -/

/-- Takes a number. -/
def numeral : Reader Nat
  | .word text :: rest => (numeral? text).map fun n => (n, rest)
  | _ => none

/-- Takes a variant with its discriminant. -/
def variant : Reader (String × Nat) := do
  let name ← word
  expect "="
  let discriminant ← numeral
  expect ","
  return (name, discriminant)

/-- Takes an arm that answers a literal. -/
def variantArm : Reader (String × String) := do
  expect "InstrId::"
  let name ← word
  expect "=>"
  let literal ← word
  expect ","
  return (name, literal)

/-- How an enumeration begins. -/
def variantsText : String :=
  "#[allow(non_camel_case_types, clippy::upper_case_acronyms)]
  #[derive(Debug, Clone, Copy, PartialEq, Eq, PartialOrd, Ord, Hash)]
  pub enum InstrId \x7b"

def countText : String := "\x7d impl InstrId \x7b pub const COUNT: usize ="

/-- How the match over an enumeration begins. -/
def matchText : String := "; pub const fn name(self) -> &'static str \x7b match self \x7b"

def variantModule : Reader VariantModule := do
  expect variantsText
  let variants ← repeated variant
  expect countText
  let count ← numeral
  expect matchText
  let arms ← many (.word "InstrId") variantArm
  expect "\x7d \x7d \x7d"
  return { variants, count, arms }

end Reader

/-! ## Files -/

/-- The lines in front of an enumeration in a header. -/
def headerFront (space : String) : List String :=
  ["/*", " * This file is automatically generated. Do not change it", " */", "",
    "#ifndef IDENTIFIERS_HPP",
    "#define IDENTIFIERS_HPP",
    "",
    "#include <utility>",
    "",
    "namespace " ++ space,
    "\x7b",
    ""]

/-- The lines behind an enumeration in a header. -/
def headerBack (space : String) : List String :=
  ["", "\x7d // namespace " ++ space, "", "#endif // IDENTIFIERS_HPP"]

/-- The lines in front of declarations that are included into a class. -/
def includedFront (space : String) : List String :=
  ["/*", " * This file is automatically generated. Do not change it", " */", "",
    "// Included into the body of " ++ space ++ "::Executor.", ""]

/-- Reads what stands between lines, which are compared character by character, since a namespace may
be any text. -/
def readBetween? {α : Type} (reader : Reader α) (front back : List String) (text : String) :
    Option α :=
  (between? (Artifact.unlines front).toList (Artifact.unlines back).toList text.toList).bind
    fun body => reader.all? (scan .between body)

/-- Reads a text that is a header with an enumeration, in a namespace, and no more. -/
def ItemHeader.read? (space text : String) : Option ItemHeader :=
  readBetween? Reader.itemHeader (headerFront space) (headerBack space) text

/-- Reads a text that is an array of declared functions, for a namespace, and no more. -/
def CallbackTable.read? (space text : String) : Option CallbackTable :=
  readBetween? Reader.callbackTable (includedFront space) [] text

/-- Reads a text that is an enumeration with discriminants, and no more. -/
def VariantModule.read? (text : String) : Option VariantModule :=
  Reader.variantModule.all? (lexemes text)

end DecodeTables.Emitted
