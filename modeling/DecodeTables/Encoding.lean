import DecodeTables.Word

/-!
# Encodings

An encoding is a text of 32 characters, most significant bit first: `0` and `1` are literal bits, and
`-` is a bit of some variable field. `Encoding.read` gives the mask of its literal bits and their
values.
-/

namespace DecodeTables

/-- Why a text is no encoding. -/
inductive EncodingFault where
  /-- The text has this many bytes. -/
  | length (bytes : Nat)
  /-- The text holds a character that stands for no bit. -/
  | unexpected (c : Char)
  deriving DecidableEq, Repr

namespace Encoding

/-- The character with the code of the first byte that a character takes in UTF-8. -/
def leadByte (c : Char) : Char :=
  let n := c.toNat
  if n < 0x80 then c
  else if n < 0x800 then Char.ofNat (0xc0 + n / 0x40)
  else if n < 0x10000 then Char.ofNat (0xe0 + n / 0x1000)
  else Char.ofNat (0xf0 + n / 0x40000)

/-- Takes in the next lower bit. -/
def step (bits : Word × Word) (c : Char) : Except EncodingFault (Word × Word) :=
  match c with
  | '0' => .ok (bits.1 <<< 1 ||| 1, bits.2 <<< 1)
  | '1' => .ok (bits.1 <<< 1 ||| 1, bits.2 <<< 1 ||| 1)
  | '-' => .ok (bits.1 <<< 1, bits.2 <<< 1)
  | _ => .error (.unexpected (leadByte c))

/-- The mask of the literal bits, and the word that holds them and is clear elsewhere. -/
def read (text : String) : Except EncodingFault (Word × Word) :=
  if text.utf8ByteSize = wordBits then text.toList.foldlM step (0, 0)
  else .error (.length text.utf8ByteSize)

end Encoding

end DecodeTables
