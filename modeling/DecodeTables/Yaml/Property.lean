import DecodeTables.Text.Hex
import DecodeTables.Yaml.Cursor
import DecodeTables.Yaml.Token

/-!
# Anchors, tags and directives

What may stand in front of a YAML node or document. Of a tag only the handle matters here, but the
rest of it must be well formed.
-/

namespace DecodeTables.Yaml.Scan

open Text

/-! ## Anchors and aliases -/

/-- Whether a character may stand right after the name of an anchor. -/
def endsAnchor : Option Char → Bool
  | some c => isSpace c || "?:,]\x7d%@`".contains c
  | none => true

/-- Reads the name of an anchor or alias from its mark on. -/
def anchorName : Scan String := do
  skip 1
  let name ← takeWhile isNameChar
  guard (!name.isEmpty && endsAnchor (← peek))
  return String.ofList name

/-! ## Tags -/

/-- Reads `%` with two hexadecimal digits as the number they write. -/
def octet : Scan Nat := do
  match (← get).rest with
  | '%' :: a :: b :: _ =>
    let n ← Hex.digits? [a, b]
    skip 3
    return n
  | _ => failure

/-- Reads as many octets as follow the first of a character in UTF-8. -/
def followingOctets : Nat → Scan Unit
  | 0 => return ()
  | n + 1 => do
    let next ← octet
    guard (0x80 ≤ next && next < 0xc0)
    followingOctets n

/-- Reads a character that is written as octets. -/
def octetCharacter : Scan Unit := do
  let first ← octet
  if first < 0x80 then return ()
  guard (0xc0 ≤ first && first < 0xf8)
  followingOctets (if first < 0xe0 then 1 else if first < 0xf0 then 2 else 3)

/-- Whether a character may stand in a tag. Some may only stand in a verbatim one. -/
def isTagChar (verbatim : Bool) (c : Char) : Bool :=
  isNameChar c || ";/?:@&=+$.!~*'()%".contains c || (verbatim && (c = ',' || c = '[' || c = ']'))

/-- Reads the characters of a tag and counts them. -/
def tagCharacters (verbatim : Bool) (count : Nat) : Nat → Scan Nat
  | 0 => failure
  | turns + 1 => do
    match ← peek with
    | some c =>
      if !isTagChar verbatim c then return count
      if c = '%' then octetCharacter else skip 1
      tagCharacters verbatim (count + 1) turns
    | none => return count

/-- Reads the characters of a tag and tells whether there is one at least. -/
def tagText (verbatim : Bool) : Scan Bool := do
  let count ← tagCharacters verbatim 0 (← turns)
  return 0 < count

/-- Reads a mark, a name that may be empty, and another mark if there is one. Gives the name, and
whether the second mark is there. -/
def tagHandle : Scan (List Char × Bool) := do
  guard (← looksAt '!')
  skip 1
  let name ← takeWhile isNameChar
  if ← looksAt '!' then
    skip 1
    return (name, true)
  return (name, false)

/-- A handle as it is written. -/
def handleText (name : List Char) : String := String.ofList ('!' :: name ++ ['!'])

/-- Reads a tag. A flow collection may have a comma right after it. -/
def tag (flow : Bool) : Scan Token := do
  let handle ← if (← ahead 1) == some '<' then do
      skip 2
      guard (← tagText true)
      guard (← looksAt '>')
      skip 1
      pure ""
    else do
      let (name, closed) ← tagHandle
      if closed then
        guard (← tagText false)
        pure (handleText name)
      else if (← tagText false) || !name.isEmpty then pure "!"
      else pure ""
  let next ← peek
  guard (endsWord next || (flow && next == some ','))
  return .tag handle

/-! ## Directives -/

/-- Reads a number of a version, of nine digits at most. -/
def versionNumber : Scan Nat := do
  let digits ← takeWhile Char.isDigit
  guard (!digits.isEmpty && digits.length ≤ 9)
  return digits.foldl (fun n c => 10 * n + (c.toNat - '0'.toNat)) 0

def version : Scan Token := do
  skipBlanks
  let major ← versionNumber
  guard (← looksAt '.')
  skip 1
  let minor ← versionNumber
  return .versionDirective major minor

def tagDeclaration : Scan Token := do
  skipBlanks
  let (name, closed) ← tagHandle
  guard (closed || name.isEmpty)
  guard ((← peek).any isBlank)
  skipBlanks
  guard (← tagText true)
  guard (endsWord (← peek))
  return .tagDirective (if closed then handleText name else "!")

/-- Reads a directive from its mark to the end of its line. -/
def directive : Scan Token := do
  skip 1
  let name ← takeWhile isNameChar
  guard (endsWord (← peek))
  let token ← match String.ofList name with
    | "YAML" => version
    | "TAG" => tagDeclaration
    | _ => failure
  finishLine
  return token

end DecodeTables.Yaml.Scan
