import DecodeTables.Text.Hex
import DecodeTables.Yaml.Cursor

/-!
# YAML scalars

The three ways to write a scalar: plain, between quotes, and as a block. Plain and quoted scalars are
words with gaps between them; a gap that holds breaks is folded.
-/

namespace DecodeTables.Yaml.Scan

open Text

/-! ## Gaps -/

/-- Blanks and breaks between two words. -/
structure Gap where
  /-- Whether there is a break. -/
  broken : Bool
  /-- The blanks, up to the first break. -/
  blanks : List Char := []
  /-- The first break. -/
  first : List Char := []
  /-- The breaks after the first. -/
  later : List Char := []

/-- The text that a gap stands for: its blanks, or its breaks without the first. A first break that
is a line feed and has no other after it counts as a space. -/
def Gap.text (g : Gap) : List Char :=
  if g.broken then
    if g.first == ['\n'] then (if g.later.isEmpty then [' '] else g.later)
    else g.first ++ g.later
  else g.blanks

/-- Reads the rest of a gap. After a break, a tab must not stand before column `indent`. -/
def gapFrom (indent : Nat) (g : Gap) : Nat → Scan Gap
  | 0 => failure
  | turns + 1 => do
    match ← peek with
    | some c =>
      if isBlank c then
        guard !(g.broken && c = '\t' && (← column) < indent)
        skip 1
        gapFrom indent (if g.broken then g else { g with blanks := g.blanks ++ [c] }) turns
      else if isBreak c then
        let text ← takeBreak
        gapFrom indent
          (if g.broken then { g with later := g.later ++ text }
            else { g with broken := true, first := text }) turns
      else return g
    | none => return g

/-- Reads a gap; it counts as broken from the start after an escaped break. -/
def gap (indent : Nat) (broken : Bool) : Scan Gap := do gapFrom indent { broken } (← turns)

/-! ## Plain scalars -/

/-- Whether a character ends the plain scalars of a flow collection. -/
def isFlowMark (c : Char) : Bool := c = ',' || c = '[' || c = ']' || c = '\x7b' || c = '\x7d'

/-- Whether a colon with this character after it is refused in the plain scalars of a flow
collection. -/
def clashes : Option Char → Bool
  | some c => isFlowMark c || c = '?'
  | none => false

/-- The word of a plain scalar from here on, last character first. -/
def plainWord (flow : Bool) (done : List Char) : List Char → Option (List Char)
  | [] => some done
  | c :: rest =>
    if isSpace c then some done
    else if flow && c = ':' && clashes rest.head? then none
    else if (c = ':' && endsWord rest.head?) || (flow && isFlowMark c) then some done
    else plainWord flow (c :: done) rest

/-- Reads words and gaps after the text read so far, which is kept last character first. Gives the
whole text so, and whether a break lies behind it. -/
def plainFrom (flow : Bool) (indent : Nat) (done : List Char) (g : Gap) :
    Nat → Scan (List Char × Bool)
  | 0 => failure
  | turns + 1 => do
    let here ← get
    if here.atMarker || (← looksAt '#') then return (done, g.broken)
    let word ← plainWord flow [] here.rest
    skip word.length
    if word.isEmpty then return (done, g.broken)
    let done := word ++ (g.text.reverse ++ done)
    match ← peek with
    | some c =>
      if !isSpace c then return (done, false)
      let g ← gap indent false
      if !flow && (← column) < indent then return (done, g.broken)
      plainFrom flow indent done g turns
    | none => return (done, false)

/-- Reads a plain scalar that may not go on before column `indent`, unless it stands in a flow
collection. Gives its text, and whether a break lies behind it. -/
def plain (flow : Bool) (indent : Nat) : Scan (String × Bool) := do
  let (done, broken) ← plainFrom flow indent [] { broken := false } (← turns)
  return (String.ofList done.reverse, broken)

/-! ## Quoted scalars -/

/-- The character after a backslash stands for this one. -/
def unescape? : Char → Option Char
  | '0' => some (Char.ofNat 0)
  | 'a' => some (Char.ofNat 7)
  | 'b' => some (Char.ofNat 8)
  | 't' | '\t' => some '\t'
  | 'n' => some '\n'
  | 'v' => some (Char.ofNat 0xb)
  | 'f' => some (Char.ofNat 0xc)
  | 'r' => some '\r'
  | 'e' => some (Char.ofNat 0x1b)
  | ' ' => some ' '
  | '"' => some '"'
  | '/' => some '/'
  | '\\' => some '\\'
  | 'N' => some (Char.ofNat 0x85)
  | '_' => some (Char.ofNat 0xa0)
  | 'L' => some (Char.ofNat 0x2028)
  | 'P' => some (Char.ofNat 0x2029)
  | _ => none

/-- The number of digits after the mark of a numeric escape. -/
def escapeWidth : Char → Nat
  | 'x' => 2
  | 'u' => 4
  | 'U' => 8
  | _ => 0

/-- Reads the character that an escape stands for. -/
def escaped : Scan Char := do
  let some mark ← ahead 1 | failure
  match escapeWidth mark with
  | 0 =>
    let c ← unescape? mark
    skip 2
    return c
  | width =>
    skip 2
    let digits := (← get).rest.take width
    guard (digits.length = width)
    let n ← Hex.digits? digits
    guard (n < 0xd800 || (0xe000 ≤ n && n < 0x110000))
    skip width
    return Char.ofNat n

/-- Reads a word between quotes, kept last character first. Also tells whether the word ends with an
escaped break. -/
def quotedWord (single : Bool) (done : List Char) : Nat → Scan (List Char × Bool)
  | 0 => failure
  | turns + 1 => do
    let some c ← peek | return (done, false)
    if isSpace c then return (done, false)
    if single then
      if c = '\'' then
        if (← ahead 1) == some '\'' then
          skip 2
          quotedWord single ('\'' :: done) turns
        else return (done, false)
      else
        skip 1
        quotedWord single (c :: done) turns
    else if c = '"' then return (done, false)
    else if c = '\\' then
      if (← ahead 1).any isBreak then
        skip 1
        discard takeBreak
        return (done, true)
      else
        let c ← escaped
        quotedWord single (c :: done) turns
    else
      skip 1
      quotedWord single (c :: done) turns

/-- Reads words and gaps up to the closing quote. -/
def quotedFrom (single : Bool) (done : List Char) : Nat → Scan (List Char)
  | 0 => failure
  | turns + 1 => do
    guard !(← get).atMarker
    guard (← peek).isSome
    let (done, broken) ← quotedWord single done (← Scan.turns)
    if ← looksAt (if single then '\'' else '"') then
      skip 1
      return done
    let g ← gap 0 broken
    quotedFrom single (g.text.reverse ++ done) turns

/-- Reads a scalar from its opening quote on. -/
def quoted (single : Bool) : Scan String := do
  skip 1
  let done ← quotedFrom single [] (← turns)
  return String.ofList done.reverse

/-! ## Block scalars -/

/-- What becomes of the breaks at the end of a block scalar. -/
inductive Chomping where
  /-- None is kept. -/
  | strip
  /-- The first is kept. -/
  | clip
  /-- All are kept. -/
  | keep
  deriving DecidableEq

def chomping? : Option Char → Option Chomping
  | some '+' => some .keep
  | some '-' => some .strip
  | _ => none

def takeChomping : Scan (Option Chomping) := do
  match chomping? (← peek) with
  | some c =>
    skip 1
    return some c
  | none => return none

/-- Reads an indentation indicator, a digit other than zero; gives zero if there is none. -/
def takeIncrement : Scan Nat := do
  match ← peek with
  | some c =>
    if c.isDigit then
      guard (c ≠ '0')
      skip 1
      return c.toNat - '0'.toNat
    else return 0
  | none => return 0

/-- Reads the two indicators of a block header, which come in either order. -/
def blockHeader : Scan (Chomping × Nat) := do
  match ← takeChomping with
  | some chomping => return (chomping, ← takeIncrement)
  | none =>
    let increment ← takeIncrement
    if increment = 0 then return (.clip, 0)
    return ((← takeChomping).getD .clip, increment)

/-- Reads indentation and empty lines. The indentation is unknown while it is zero; then the deepest
line is looked for. Gives the breaks and that depth. -/
def blockGap (indent deepest : Nat) (breaks : List Char) : Nat → Scan (List Char × Nat)
  | 0 => failure
  | turns + 1 => do
    let here ← get
    let inMargin column := indent = 0 || column < indent
    let spaces := (here.rest.takeWhile (· = ' ')).length
    let width := if indent = 0 then spaces else min spaces (indent - here.column)
    skip width
    let column ← column
    let deepest := max deepest column
    guard !(inMargin column && (← looksAt '\t'))
    match ← takeBreak with
    | [] => return (breaks, deepest)
    | text => blockGap indent deepest (breaks ++ text) turns

/-- Reads the lines of a block scalar. `last` is the break behind the last line, `breaks` those of
empty lines after it, and `blank` tells whether the last line starts with a blank. -/
def blockLines (literal : Bool) (indent : Nat) (done last breaks : List Char) (blank : Bool) :
    Nat → Scan (List Char × List Char × List Char)
  | 0 => failure
  | turns + 1 => do
    let next ← peek
    if (← column) ≠ indent || next.isNone then return (done, last, breaks)
    let startsBlank := next.any isBlank
    let join :=
      if !literal && last == ['\n'] && !blank && !startsBlank then
        (if breaks.isEmpty then [' '] else [])
      else last
    let line ← takeWhile fun c => !isBreak c
    let done := line.reverse ++ (breaks.reverse ++ (join.reverse ++ done))
    let last ← takeBreak
    let (breaks, _) ← blockGap indent 0 [] (← Scan.turns)
    blockLines literal indent done last breaks startsBlank turns

/-- Reads a block scalar from its mark on. `parent` is the indentation around it, if there is a block
around it. -/
def block (literal : Bool) (parent : Option Nat) : Scan String := do
  skip 1
  let (chomping, increment) ← blockHeader
  finishLine
  let given := if increment = 0 then 0 else parent.getD 0 + increment
  let (breaks, deepest) ← blockGap given 0 [] (← turns)
  let least := match parent with
    | some column => column + 1
    | none => 1
  let indent := if given = 0 then max deepest least else given
  let (done, last, breaks) ← blockLines literal indent [] [] breaks false (← turns)
  let tail := match chomping with
    | .strip => []
    | .clip => last
    | .keep => last ++ breaks
  return String.ofList (done.reverse ++ tail)

end DecodeTables.Yaml.Scan
