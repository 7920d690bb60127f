import DecodeTables.Word
import DecodeTables.Text.Blank

/-!
# Hexadecimal words

The hexadecimal texts of words: `Hex.parse?` reads them, blanks around them and underscores within
them included; `Hex.short`, `Hex.padded` and `Hex.halves` write them.
-/

namespace DecodeTables.Text.Hex

/-- The value of a hexadecimal digit of either case. -/
def digit? (c : Char) : Option Nat :=
  if '0' ≤ c && c ≤ '9' then some (c.toNat - '0'.toNat)
  else if 'a' ≤ c && c ≤ 'f' then some (c.toNat - 'a'.toNat + 10)
  else if 'A' ≤ c && c ≤ 'F' then some (c.toNat - 'A'.toNat + 10)
  else none

/-- The value of a row of digits, most significant first. -/
def digits? (digits : List Char) : Option Nat :=
  digits.foldlM (fun value c => (digit? c).map fun d => 16 * value + d) 0

/-- The value of one or more digits after an optional plus sign, if it is a word. -/
def number? (text : List Char) : Option Word :=
  let digits := match text with
    | '+' :: rest => rest
    | _ => text
  if digits.isEmpty then none
  else (digits? digits).bind fun value =>
    if value < 0x100000000 then some (BitVec.ofNat 32 value) else none

/-- Drops one leading `0x` or `0X`. -/
def dropMark : List Char → List Char
  | '0' :: 'x' :: rest => rest
  | '0' :: 'X' :: rest => rest
  | text => text

/-- Reads a word. Blanks around the text are ignored, then one leading `0x` or `0X`, then every
underscore; what is left is a number of at most 32 bits. -/
def parse? (text : String) : Option Word :=
  let digits := dropMark (trim text.toList)
  if digits.isEmpty then none else number? (digits.filter (· != '_'))

/-- The digits of a number, lower case, without leading zeros. -/
def digits (n : Nat) : List Char := Nat.toDigits 16 n

/-- The digits of a number after as many zeros as make up the width. -/
def digitsPadded (width n : Nat) : List Char :=
  List.replicate (width - (digits n).length) '0' ++ digits n

/-- A number as `0x13`. -/
def short (n : Nat) : String := "0x" ++ String.ofList (digits n)

/-- A number as `0x` and at least `width` digits. -/
def paddedTo (width n : Nat) : String := "0x" ++ String.ofList (digitsPadded width n)

/-- A word as `0x` and eight digits. -/
def padded (w : Word) : String := paddedTo 8 w.toNat

/-- A word as `0x` and two groups of four digits. -/
def halves (w : Word) : String :=
  "0x" ++ String.ofList
    (digitsPadded 4 (w.toNat / 65536) ++ '_' :: digitsPadded 4 (w.toNat % 65536))

end DecodeTables.Text.Hex
