/-!
# Reading characters of a YAML stream

A `Cursor` is a place in a stream: the characters that are left, and how many characters, lines and
columns lie before it. `Scan` runs over a cursor and may fail; a stream is good or bad as a whole, so
failures carry no cause.
-/

namespace DecodeTables.Yaml

/-! ## Classes of characters -/

/-- The characters that a stream may hold. -/
def isAllowed (c : Char) : Bool :=
  let n := c.toNat
  n == 0x9 || n == 0xa || n == 0xd || (0x20 ≤ n && n ≤ 0x7e) || n == 0x85 ||
    (0xa0 ≤ n && n ≤ 0xd7ff) || (0xe000 ≤ n && n ≤ 0xfffd) || 0x10000 ≤ n

def isBlank (c : Char) : Bool := c = ' ' || c = '\t'

/-- Line feed, carriage return, next line, line separator and paragraph separator. -/
def isBreak (c : Char) : Bool :=
  c = '\n' || c = '\r' || c.toNat == 0x85 || c.toNat == 0x2028 || c.toNat == 0x2029

def isSpace (c : Char) : Bool := isBlank c || isBreak c

/-- The characters of names: of anchors, directives and tag handles. -/
def isNameChar (c : Char) : Bool := c.isAlphanum || c = '-' || c = '_'

/-- Whether a character is a break; the end of the stream ends a line too. -/
def endsLine : Option Char → Bool
  | some c => isBreak c
  | none => true

/-- Whether a character is a blank or a break, or the stream ends. -/
def endsWord : Option Char → Bool
  | some c => isSpace c
  | none => true

/-! ## Places -/

/-- A place in a stream. -/
structure Cursor where
  rest : List Char
  /-- Characters before this place. -/
  index : Nat := 0
  /-- Lines that end before this place. -/
  line : Nat := 0
  /-- Characters before this place in its line. -/
  column : Nat := 0

namespace Cursor

variable (c : Cursor)

/-- The place after `n` more characters, none of which is a break. -/
def drop (n : Nat) : Cursor :=
  { c with rest := c.rest.drop n, index := c.index + n, column := c.column + n }

/-- The place at the start of the next line, `n` characters on. -/
def nextLine (n : Nat) : Cursor :=
  { rest := c.rest.drop n, index := c.index + n, line := c.line + 1, column := 0 }

/-- Whether a document marker of three equal characters starts here. -/
def startsMarker (mark : Char) : Bool :=
  c.column == 0 &&
    match c.rest with
    | x :: y :: z :: rest => x = mark && y = mark && z = mark && endsWord rest.head?
    | _ => false

/-- Whether the line starts with `---` or `...`. -/
def atMarker : Bool := c.startsMarker '-' || c.startsMarker '.'

end Cursor

/-! ## Scanning -/

/-- Runs over a cursor and may fail. -/
abbrev Scan := StateT Cursor Option

namespace Scan

/-- The character `k` places on. -/
def ahead (k : Nat) : Scan (Option Char) := return (← get).rest[k]?

def peek : Scan (Option Char) := return (← get).rest.head?

/-- Whether the next character is this one. -/
def looksAt (c : Char) : Scan Bool := return (← peek) == some c

def skip (n : Nat) : Scan Unit := modify fun c => c.drop n

def column : Scan Nat := return (← get).column

/-- The characters from here on of which a condition holds. -/
def takeWhile (p : Char → Bool) : Scan (List Char) := do
  let taken := (← get).rest.takeWhile p
  skip taken.length
  return taken

def skipBlanks : Scan Unit := discard (takeWhile isBlank)

/-- Passes over a comment, if one starts here. -/
def skipComment : Scan Unit := do
  if ← looksAt '#' then discard (takeWhile fun c => !isBreak c)

/-- Reads a break as the text it stands for. A carriage return with a line feed after it is one
break, and all breaks but the two separators stand for a line feed. Reads nothing if there is no
break here. -/
def takeBreak : Scan (List Char) := do
  match (← get).rest with
  | '\r' :: '\n' :: _ =>
      modify fun c => c.nextLine 2
      return ['\n']
  | c :: _ =>
      if isBreak c then
        modify fun c => c.nextLine 1
        return if c.toNat == 0x2028 || c.toNat == 0x2029 then [c] else ['\n']
      else return []
  | [] => return []

/-- Passes over blanks and a comment up to the end of the line, and over the break. -/
def finishLine : Scan Unit := do
  skipBlanks
  skipComment
  guard (endsLine (← peek))
  discard takeBreak

/-- Turns that are enough for a loop that takes a character in each turn but the last. -/
def turns : Scan Nat := return (← get).rest.length + 1

end Scan

end DecodeTables.Yaml
