import DecodeTables.Yaml.Property
import DecodeTables.Yaml.Scalar

/-!
# The tokens of a YAML stream

`Token.scan?` splits a text into tokens. Two things need more than the characters at hand. Block
structure comes from the indentation, so the columns of the open blocks are kept. And a key shows only
at the colon behind it, so for each open collection the place is kept where a key may have started;
the colon then puts a `key` token in front of the tokens that were scanned since.
-/

namespace DecodeTables.Yaml

/-- A place where a key may have started. -/
structure KeyStart where
  /-- Tokens in front of the key. -/
  position : Nat
  /-- Whether a key has to start here, since the block has only keys in this column. -/
  required : Bool
  index : Nat
  line : Nat
  column : Nat

/-- How far a stream has been scanned. -/
structure Scanner where
  cursor : Cursor
  tokens : Array Token := #[]
  /-- The column of the innermost block, unless there is no block. -/
  indent : Option Nat := none
  /-- The columns of the blocks around it, innermost first. -/
  outer : List (Option Nat) := []
  /-- Where a key may have started in the innermost collection. -/
  keyStart : Option KeyStart := none
  /-- The same for the collections around it; as many as there are open flow collections. -/
  outerKeys : List (Option KeyStart) := []
  /-- Whether a key may start at the next token. -/
  keyAllowed : Bool := true

namespace Scanner

variable (s : Scanner)

/-- Whether the scanner is in a flow collection. -/
def flow : Bool := !s.outerKeys.isEmpty

/-- The first column that belongs to the innermost block's contents. -/
def inner : Nat :=
  match s.indent with
  | some column => column + 1
  | none => 0

def emit (token : Token) : Scanner := { s with tokens := s.tokens.push token }

/-- Passes over `n` characters. -/
def skip (n : Nat) : Scanner := { s with cursor := s.cursor.drop n }

/-- Runs a scan from the current place. -/
def scan {α : Type} (f : Scan α) : Option (α × Scanner) :=
  (f s.cursor).map fun (a, cursor) => (a, { s with cursor })

/-- Emits the token that a scan reads. -/
def emitScan (f : Scan Token) : Option Scanner := (s.scan f).map fun (token, s) => s.emit token

/-! ## Keys -/

/-- Gives up the place where a key may have started, which fails if one had to. -/
def dropKey : Option Scanner :=
  if s.keyStart.any KeyStart.required then none else some { s with keyStart := none }

/-- Remembers the current place as one where a key may start, if keys are allowed. -/
def saveKey : Option Scanner :=
  if s.keyAllowed then
    s.dropKey.map fun s => { s with
      keyStart := some {
        position := s.tokens.size
        required := !s.flow && s.indent == some s.cursor.column
        index := s.cursor.index
        line := s.cursor.line
        column := s.cursor.column } }
  else some s

/-- Whether the scanner is past the places where the colon of a key may stand: the line of the key
and 1024 characters. -/
def isStale (k : KeyStart) : Bool := k.line < s.cursor.line || k.index + 1024 < s.cursor.index

/-- Gives up a stale key, which fails if it had to be one. -/
def freshKey? (k : Option KeyStart) : Option (Option KeyStart) :=
  match k with
  | some start =>
    if s.isStale start then (if start.required then none else some none) else some k
  | none => some none

def dropStaleKeys : Option Scanner := do
  let outerKeys ← s.outerKeys.mapM s.freshKey?
  let keyStart ← s.freshKey? s.keyStart
  return { s with keyStart, outerKeys }

/-! ## Blocks -/

/-- Opens a block at a column that is deeper than the innermost block, with its token in front of the
tokens from `position` on. Flow collections hold no blocks. -/
def openBlock (column position : Nat) (token : Token) : Scanner :=
  if s.flow || column < s.inner then s
  else { s with
    tokens := s.tokens.insertIdxIfInBounds position token
    indent := some column
    outer := s.indent :: s.outer }

/-- Closes blocks, given with the columns around them, while the innermost is deeper than a column;
without a column all are closed. -/
def closeBlocks (column : Option Nat) (tokens : Array Token) :
    Option Nat → List (Option Nat) → Array Token × Option Nat × List (Option Nat)
  | some indent, around :: outer =>
    if column.all (· < indent) then closeBlocks column (tokens.push .blockEnd) around outer
    else (tokens, some indent, around :: outer)
  | indent, outer => (tokens, indent, outer)

def unrollTo (column : Option Nat) : Scanner :=
  if s.flow then s
  else
    let (tokens, indent, outer) := closeBlocks column s.tokens s.indent s.outer
    { s with tokens, indent, outer }

/-! ## Tokens -/

/-- Passes over a byte order mark at the start of a line. It takes up a column. -/
def skipByteOrderMark : Scanner :=
  if s.cursor.column == 0 && s.cursor.rest.head? == some (Char.ofNat 0xfeff) then s.skip 1 else s

/-- Passes over blanks, comments and breaks. A tab is a blank only where no key may start. -/
def skipToToken : Nat → Scanner → Option Scanner
  | 0, _ => none
  | turns + 1, s => do
    let s := s.skipByteOrderMark
    let isBlank (c : Char) : Bool := c = ' ' || (c = '\t' && (s.flow || !s.keyAllowed))
    let (_, s) ← s.scan (Scan.takeWhile isBlank)
    let (_, s) ← s.scan Scan.skipComment
    let (text, s) ← s.scan Scan.takeBreak
    if text.isEmpty then return s
    skipToToken turns { s with keyAllowed := s.keyAllowed || !s.flow }

/-- Leaves all blocks, for what stands between documents. -/
def leaveDocument : Option Scanner :=
  (s.unrollTo none).dropKey.map fun s => { s with keyAllowed := false }

def marker (token : Token) : Option Scanner :=
  s.leaveDocument.map fun s => (s.emit token).skip 3

def openFlow (token : Token) : Option Scanner :=
  s.saveKey.map fun s =>
    ({ s with keyStart := none, outerKeys := s.keyStart :: s.outerKeys, keyAllowed := true }.emit
      token).skip 1

def closeFlow (token : Token) : Option Scanner :=
  s.dropKey.map fun s =>
    let s := match s.outerKeys with
      | keyStart :: outerKeys => { s with keyStart, outerKeys }
      | [] => s
    ({ s with keyAllowed := false }.emit token).skip 1

def flowEntry : Option Scanner :=
  s.dropKey.map fun s => ({ s with keyAllowed := true }.emit .flowEntry).skip 1

/-- An entry of a block sequence or an explicit key, which may only stand where a key may start. -/
def openEntry (collection token : Token) (keyAllowed : Bool) : Option Scanner := do
  guard (s.flow || s.keyAllowed)
  let s ← (s.openBlock s.cursor.column s.tokens.size collection).dropKey
  return ({ s with keyAllowed }.emit token).skip 1

/-- A colon. If a key may have started before it, the key's token goes in front of the key. -/
def value : Option Scanner :=
  match s.keyStart with
  | some start =>
    let s := { s with
      tokens := s.tokens.insertIdxIfInBounds start.position .key
      keyStart := none
      keyAllowed := false }
    some (((s.openBlock start.column start.position .blockMappingStart).emit .value).skip 1)
  | none =>
    if s.flow then some (({ s with keyAllowed := false }.emit .value).skip 1)
    else if s.keyAllowed then
      some (((s.openBlock s.cursor.column s.tokens.size .blockMappingStart).emit .value).skip 1)
    else none

/-- A node or a property of one, where a key may start. -/
def node (f : Scan Token) : Option Scanner := do
  let s ← s.saveKey
  { s with keyAllowed := false }.emitScan f

def plain : Option Scanner := do
  let s ← s.saveKey
  let ((text, broken), s) ← s.scan (Scan.plain s.flow s.inner)
  return { s with keyAllowed := broken }.emit (.scalar text true)

def block (literal : Bool) : Option Scanner := do
  let s ← s.dropKey
  { s with keyAllowed := true }.emitScan
    ((Scan.block literal s.indent).map fun text => .scalar text false)

/-- Whether a plain scalar may start with a character that has another after it. -/
def startsPlain (c : Char) (next : Option Char) : Bool :=
  !("-?:,[]\x7b\x7d#&*!|>'\"%@`".contains c || isSpace c) ||
    (c = '-' && !next.any isBlank) ||
    (!s.flow && (c = '?' || c = ':') && !endsWord next)

/-- Scans a token that starts with a character. -/
def token (c : Char) : Option Scanner :=
  let next := s.cursor.rest[1]?
  if c = '%' && s.cursor.column == 0 then s.leaveDocument.bind fun s => s.emitScan Scan.directive
  else if s.cursor.startsMarker '-' then s.marker .documentStart
  else if s.cursor.startsMarker '.' then s.marker .documentEnd
  else if c = '[' then s.openFlow .flowSequenceStart
  else if c = '\x7b' then s.openFlow .flowMappingStart
  else if c = ']' then s.closeFlow .flowSequenceEnd
  else if c = '\x7d' then s.closeFlow .flowMappingEnd
  else if c = ',' then s.flowEntry
  else if c = '-' && endsWord next then s.openEntry .blockSequenceStart .blockEntry true
  else if c = '?' && (s.flow || endsWord next) then
    s.openEntry .blockMappingStart .key (!s.flow)
  else if c = ':' && (s.flow || endsWord next) then s.value
  else if c = '*' then s.node (Scan.anchorName.map .alias)
  else if c = '&' then s.node (Scan.anchorName.map .anchor)
  else if c = '!' then s.node (Scan.tag s.flow)
  else if c = '|' && !s.flow then s.block true
  else if c = '>' && !s.flow then s.block false
  else if c = '\'' then s.node ((Scan.quoted true).map fun text => .scalar text false)
  else if c = '"' then s.node ((Scan.quoted false).map fun text => .scalar text false)
  else if s.startsPlain c next then s.plain
  else none

/-- Closes what is open at the end of the stream. -/
def finish : Option (List Token) :=
  s.leaveDocument.map fun s => (s.emit .streamEnd).tokens.toList

/-- Scans token after token to the end of the stream. -/
def run : Nat → Scanner → Option (List Token)
  | 0, _ => none
  | turns + 1, s => do
    let s ← s.skipToToken (s.cursor.rest.length + 1)
    let s ← s.dropStaleKeys
    let s := s.unrollTo (some s.cursor.column)
    match s.cursor.rest.head? with
    | none => s.finish
    | some c => run turns (← s.token c)

end Scanner

/-- The tokens of a stream. -/
def Token.scan? (text : String) : Option (List Token) := do
  let text := text.toList
  guard (text.all isAllowed)
  Scanner.run (text.length + 2) { cursor := { rest := text } }

end DecodeTables.Yaml
