import DecodeTables.Text.Hex

/-!
# JSON tokens

`Token.scan?` splits a text into the tokens of JSON. Only the blanks, literals and escapes of the
format are accepted, and no literal starts in the middle of another: `01` is two numbers.
-/

namespace DecodeTables.Json

inductive Token where
  | leftBracket | rightBracket | leftBrace | rightBrace | colon | comma
  | null
  | bool (b : Bool)
  | number (literal : String)
  /-- A string literal, with its text if it stands for one. -/
  | string (text : Option String)
  deriving DecidableEq, Repr

namespace Token

open Text

/-! ## Strings -/

/-- What a string literal is made of: characters, and 16-bit units written as escapes. -/
inductive Piece where
  | char (c : Char)
  | unit (n : Nat)

/-- The character after a backslash stands for this one. -/
def unescape? : Char → Option Char
  | '"' => some '"'
  | '\\' => some '\\'
  | '/' => some '/'
  | 'b' => some (Char.ofNat 8)
  | 'f' => some (Char.ofNat 12)
  | 'n' => some '\n'
  | 'r' => some '\r'
  | 't' => some '\t'
  | _ => none

/-- The pieces, last first, up to the closing quote, and the text after it. -/
def pieces (done : List Piece) : List Char → Option (List Piece × List Char)
  | [] => none
  | '"' :: rest => some (done, rest)
  | '\\' :: 'u' :: a :: b :: c :: d :: rest => do
      let unit ← Hex.digits? [a, b, c, d]
      pieces (.unit unit :: done) rest
  | '\\' :: e :: rest => do
      let c ← unescape? e
      pieces (.char c :: done) rest
  | c :: rest => if c.toNat < 0x20 then none else pieces (.char c :: done) rest

/-- The characters of pieces, last first. A high surrogate takes the low one after it as its partner;
a surrogate without partner stands for no character. -/
def characters (done : List Char) : List Piece → Option (List Char)
  | [] => some done
  | .char c :: rest => characters (c :: done) rest
  | .unit high :: .unit low :: rest =>
      if 0xd800 ≤ high && high < 0xdc00 then
        if 0xdc00 ≤ low && low < 0xe000 then
          characters (Char.ofNat (0x10000 + (high - 0xd800) * 0x400 + (low - 0xdc00)) :: done) rest
        else none
      else if 0xdc00 ≤ high && high < 0xe000 then none
      else characters (Char.ofNat high :: done) (.unit low :: rest)
  | .unit n :: rest =>
      if 0xd800 ≤ n && n < 0xe000 then none else characters (Char.ofNat n :: done) rest
termination_by ps => ps.length

/-! ## Numbers -/

/-- One or more digits. -/
def digits? (text : List Char) : Option (List Char × List Char) :=
  let digits := text.takeWhile Char.isDigit
  if digits.isEmpty then none else some (digits, text.dropWhile Char.isDigit)

/-- The whole part of a number: a zero, or digits that do not start with one. -/
def whole? : List Char → Option (List Char × List Char)
  | '0' :: rest => some (['0'], rest)
  | text => digits? text

/-- The fraction, if there is a point. -/
def fraction? : List Char → Option (List Char × List Char)
  | '.' :: rest => (digits? rest).map fun (digits, rest) => ('.' :: digits, rest)
  | text => some ([], text)

/-- The exponent, if there is a mark for one. -/
def exponent? : List Char → Option (List Char × List Char)
  | e :: rest =>
      if e = 'e' || e = 'E' then
        match rest with
        | '+' :: rest => (digits? rest).map fun (digits, rest) => (e :: '+' :: digits, rest)
        | '-' :: rest => (digits? rest).map fun (digits, rest) => (e :: '-' :: digits, rest)
        | _ => (digits? rest).map fun (digits, rest) => (e :: digits, rest)
      else some ([], e :: rest)
  | [] => some ([], [])

def number? (text : List Char) : Option (String × List Char) := do
  let (sign, text) := match text with
    | '-' :: rest => (['-'], rest)
    | _ => ([], text)
  let (whole, text) ← whole? text
  let (fraction, text) ← fraction? text
  let (exponent, text) ← exponent? text
  return (String.ofList (sign ++ whole ++ fraction ++ exponent), text)

/-! ## Documents -/

def isBlank (c : Char) : Bool := c = ' ' || c = '\t' || c = '\n' || c = '\r'

/-- The first token of a text that starts with neither a blank nor its end. -/
def next? : List Char → Option (Token × List Char)
  | '[' :: rest => some (.leftBracket, rest)
  | ']' :: rest => some (.rightBracket, rest)
  | '\x7b' :: rest => some (.leftBrace, rest)
  | '\x7d' :: rest => some (.rightBrace, rest)
  | ':' :: rest => some (.colon, rest)
  | ',' :: rest => some (.comma, rest)
  | 'n' :: 'u' :: 'l' :: 'l' :: rest => some (.null, rest)
  | 't' :: 'r' :: 'u' :: 'e' :: rest => some (.bool true, rest)
  | 'f' :: 'a' :: 'l' :: 's' :: 'e' :: rest => some (.bool false, rest)
  | '"' :: rest => (pieces [] rest).map fun (done, rest) =>
      (.string ((characters [] done.reverse).map fun cs => String.ofList cs.reverse), rest)
  | text => (number? text).map fun (literal, rest) => (.number literal, rest)

/-- The tokens of a text after those already found, which are kept last first. Each turn takes a
token of one character at least, so as many turns as there are characters are enough. -/
def scanFrom (done : List Token) : Nat → List Char → Option (List Token)
  | 0, _ => none
  | turns + 1, text =>
    match text.dropWhile isBlank with
    | [] => some done.reverse
    | text => do
      let (token, rest) ← next? text
      scanFrom (token :: done) turns rest

def scan? (text : String) : Option (List Token) :=
  scanFrom [] (text.length + 1) text.toList

end Token

end DecodeTables.Json
