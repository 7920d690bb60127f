import DecodeTables.Encoding
import DecodeTables.Text.Hex
import DecodeTables.Text.Quoted

/-!
# Defects

What keeps a list of instructions from becoming a table. A `Defect` is a cause; `Defect.message` is
its wording.
-/

namespace DecodeTables

open Text (Hex.padded quoteAll)

/-- What is wrong with a single instruction. -/
inductive Malformation where
  | badMask (text : String)
  | badMatch (text : String)
  | emptyIdentifier
  | encoding (fault : EncodingFault)
  /-- Some opcode bit belongs to a variable field. -/
  | opcodeVariable
  | maskDisagrees (mask literal : Word)
  | matchDisagrees (value literal : Word)
  /-- Declared fields reach into these literal bits. -/
  | overlap (bits : Word)
  /-- These bits are neither literal nor part of a declared field. -/
  | uncovered (bits : Word)
  | listedTwice
  /-- The identifier has the same symbol as an earlier one. -/
  | symbolTaken (symbol earlier : String)
  | notEnumerated
  deriving DecidableEq, Repr

def Malformation.message : Malformation → String
  | badMask text => s!"bad mask `{text}`"
  | badMatch text => s!"bad match `{text}`"
  | emptyIdentifier => "empty identifier"
  | encoding (.length n) => s!"encoding has {n} bits, expected {wordBits}"
  | encoding (.unexpected c) => s!"unexpected character `{c}` in encoding"
  | opcodeVariable => "opcode bits [6:0] are not all literal"
  | maskDisagrees mask literal =>
      s!"mask {Hex.padded mask} disagrees with encoding ({Hex.padded literal})"
  | matchDisagrees value literal =>
      s!"match {Hex.padded value} disagrees with encoding ({Hex.padded literal})"
  | overlap bits => s!"variable fields overlap literal bits {Hex.padded bits}"
  | uncovered bits => s!"bits {Hex.padded bits} belong to no declared field"
  | listedTwice => "identifier listed twice"
  | symbolTaken symbol earlier => s!"symbol `{symbol}` is also generated for `{earlier}`"
  | notEnumerated => "not enumerated"

/-- Why a list of instructions has no table. -/
inductive Defect where
  | malformed (id : String) (reason : Malformation)
  /-- Two instructions have the same mask and the same literal bits. -/
  | ambiguous (first second : String) (mask value : Word)
  /-- The fields include an unknown one, or have no consistent immediate. -/
  | unsupportedFields (id : String) (fields : List String)
  deriving DecidableEq, Repr

def Defect.message : Defect → String
  | malformed id reason => s!"malformed descriptor `{id}`: {reason.message}"
  | ambiguous first second mask value =>
      s!"`{first}` and `{second}` share mask {Hex.padded mask} and match {Hex.padded value}"
  | unsupportedFields id fields =>
      s!"unsupported variable field combination for `{id}`: {quoteAll fields}"

end DecodeTables
