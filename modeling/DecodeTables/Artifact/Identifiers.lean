import DecodeTables.Artifact.Basic
import DecodeTables.Text.Quoted

/-!
# Sources of identifiers

An enumeration with an item for each identifier, in the order of ordinals, and a terminal item after
the last, together with a function from items to names. `Items` is the enumeration; `cppLines` and
`rustLines` write it.
-/

namespace DecodeTables.Artifact

open Text

/-- The symbols and names of the identifiers, by ordinal. -/
structure Items where
  items : List (String × String)
  deriving DecidableEq, Repr

namespace Items

def ofTable (t : Table) : Items := ⟨t.numbering.names.map fun name => (symbol name, name)⟩

variable (e : Items)

/-! ## C++ -/

/-- The names of the items in C++. -/
def cppNames : List String := e.items.map (fun item => "k" ++ item.1) ++ ["kEndID"]

def cppBanner : List String :=
  ["/*", " * This file is automatically generated. Do not change it", " */", ""]

def openSpace (space : String) : List String := ["namespace " ++ space, "\x7b", ""]

def closeSpace (space : String) : List String := ["\x7d // namespace " ++ space, ""]

def cppLines (space : String) : List String :=
  cppBanner ++
  ["#ifndef IDENTIFIERS_HPP",
    "#define IDENTIFIERS_HPP",
    "",
    "#include <utility>",
    ""] ++
  openSpace space ++
  ["enum InstrID",
    "\x7b"] ++
  separated (e.cppNames.map (indent 1)) ++
  ["\x7d;",
    "",
    "inline const char *enum_to_str(InstrID id) noexcept",
    "\x7b",
    indent 1 "switch (id)",
    indent 1 "\x7b"] ++
  e.items.flatMap (fun item =>
    [indent 2 ("case k" ++ item.1 ++ ":"),
      indent 3 ("return \"" ++ item.1 ++ "\";")]) ++
  [indent 2 "default:",
    indent 3 "std::unreachable();",
    indent 1 "\x7d",
    "\x7d",
    ""] ++
  closeSpace space ++
  ["#endif // IDENTIFIERS_HPP"]

/-! ## Rust -/

/-- The names of the items in Rust. -/
def rustNames : List String := e.items.map Prod.fst ++ ["END"]

def rustBanner : List String := ["// This file is automatically generated. Do not change it.", ""]

def rustLines : List String :=
  rustBanner ++
  ["#[allow(non_camel_case_types, clippy::upper_case_acronyms)]",
    "#[derive(Debug, Clone, Copy, PartialEq, Eq, PartialOrd, Ord, Hash)]",
    "pub enum InstrId \x7b"] ++
  e.items.zipIdx.map (fun (item, ordinal) => indent 1 s!"{item.1} = {ordinal},") ++
  [indent 1 "/// Not a decode result; sizes per-instruction tables.",
    indent 1 s!"END = {e.items.length},",
    "\x7d",
    "",
    "impl InstrId \x7b",
    indent 1 s!"pub const COUNT: usize = {e.items.length};",
    "",
    indent 1 "pub const fn name(self) -> &'static str \x7b",
    indent 2 "match self \x7b"] ++
  e.items.map (fun item => indent 3 s!"InstrId::{item.1} => {quote item.2},") ++
  [indent 3 "InstrId::END => \"END\",",
    indent 2 "\x7d",
    indent 1 "\x7d",
    "\x7d"]

end Items

end DecodeTables.Artifact
