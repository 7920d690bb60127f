import DecodeTables.Yaml.Tokens

/-!
# YAML events

`Event.ofTokens?` reads the tokens of a stream by the grammar of YAML and gives the events of each
document: scalars, aliases, and the starts and ends of collections. The reader keeps a stack of goals,
the productions that are still open; a turn takes the first goal and replaces it by the goals that it
consists of.
-/

namespace DecodeTables.Yaml

inductive Event where
  | scalar (anchor : Option String) (text : String) (plain : Bool)
  | alias (name : String)
  | sequenceStart (anchor : Option String)
  | sequenceEnd
  | mappingStart (anchor : Option String)
  | mappingEnd
  deriving DecidableEq, Repr

/-- What is to be read next. -/
inductive Goal where
  /-- The directives and content of a document, or the end of the stream. Only the first document
  may do without a marker in front of it. -/
  | document (first : Bool)
  /-- The content of a document behind its marker. -/
  | content
  /-- The end of a document. -/
  | closing
  /-- A node. Some may be block collections, some may be sequences without indentation. -/
  | node (block bare : Bool)
  | blockEntries
  /-- The entries of a block sequence that is not indented deeper than the mapping around it. -/
  | bareEntries
  | blockKey
  | blockValue
  | flowEntries (first : Bool)
  | flowKey (first : Bool)
  | flowValue
  /-- The value that a key without one has. -/
  | noValue
  /-- A mapping of one pair, written as an entry of a flow sequence. -/
  | pairKey
  | pairValue
  | pairEnd
  deriving DecidableEq, Repr

/-- How far the tokens have been read. -/
structure Reader where
  tokens : List Token
  goals : List Goal := [.document true]
  /-- The events of the current document, last first. -/
  events : List Event := []
  /-- The handles that the tags of the current document may use. -/
  handles : List String := []
  /-- The documents that are complete, last first. -/
  documents : List (List Event) := []

namespace Reader

variable (r : Reader)

def emit (event : Event) : Reader := { r with events := event :: r.events }

/-- A node that is not written. -/
def emitEmpty : Reader := r.emit (.scalar none "" true)

/-- Puts goals in front of those that are open. -/
def goal (goals : List Goal) : Reader := { r with goals := goals ++ r.goals }

/-- Passes over a token. -/
def skip : Reader := { r with tokens := r.tokens.tail }

def next : Option Token := r.tokens.head?

/-- Reads a node in front of a goal, unless the next token is one that follows a missing node. -/
def nodeUnless (closers : List Token) (node rest : Goal) : Reader :=
  if r.next.any closers.contains then r.emitEmpty.goal [rest] else r.goal [node, rest]

/-- The handles that every document may use. -/
def commonHandles : List String := ["!", "!!"]

/-- Reads directives. There may be one version, with a number that is known, and a handle may be
declared once. -/
def directives (version : Bool) (handles : List String) :
    List Token → Option (List String × List Token)
  | .versionDirective major minor :: rest =>
      if version || major ≠ 1 || (minor ≠ 1 && minor ≠ 2) then none
      else directives true handles rest
  | .tagDirective handle :: rest =>
      if handles.contains handle then none else directives version (handle :: handles) rest
  | tokens => some (handles, tokens)

def readDocument (first : Bool) : Option Reader :=
  let tokens := if first then r.tokens else r.tokens.dropWhile (· == .documentEnd)
  let begun (handles : List String) (tokens : List Token) (goals : List Goal) : Reader :=
    { r with tokens, handles := handles ++ commonHandles, goals := goals ++ r.goals }
  match tokens with
  | [] => none
  | .streamEnd :: rest => some { r with tokens := rest }
  | token :: _ =>
    let explicit := match token with
      | .versionDirective _ _ | .tagDirective _ | .documentStart => true
      | _ => false
    if first && !explicit then some (begun [] tokens [.node true false, .closing])
    else match directives false [] tokens with
      | some (handles, .documentStart :: rest) => some (begun handles rest [.content, .closing])
      | _ => none

def readContent : Option Reader :=
  match r.next with
  | some (.versionDirective _ _) | some (.tagDirective _) | some .documentStart
  | some .documentEnd | some .streamEnd => some r.emitEmpty
  | _ => some (r.goal [.node true false])

def readClosing : Option Reader :=
  let r := if r.next == some .documentEnd then r.skip else r
  let closed : Reader :=
    { r with events := [], documents := r.events.reverse :: r.documents, handles := [] }
  some (closed.goal [.document false])

/-- Reads an anchor and a tag, in either order. Gives the anchor and the handle of the tag. -/
def properties : List Token → Option String × Option String × List Token
  | .anchor name :: .tag handle :: rest => (some name, some handle, rest)
  | .anchor name :: rest => (some name, none, rest)
  | .tag handle :: .anchor name :: rest => (some name, some handle, rest)
  | .tag handle :: rest => (none, some handle, rest)
  | tokens => (none, none, tokens)

def readNode (block bare : Bool) : Option Reader :=
  match r.next with
  | some (.alias name) => some (r.skip.emit (.alias name))
  | _ =>
    let (anchor, tag, tokens) := properties r.tokens
    let r := { r with tokens }
    if tag.any fun handle => handle ≠ "" && !r.handles.contains handle then none
    else match r.next with
      | some (.scalar text plain) => some (r.skip.emit (.scalar anchor text plain))
      | some .flowSequenceStart =>
          some ((r.skip.emit (.sequenceStart anchor)).goal [.flowEntries true])
      | some .flowMappingStart =>
          some ((r.skip.emit (.mappingStart anchor)).goal [.flowKey true])
      | token =>
        if bare && token == some .blockEntry then
          some ((r.emit (.sequenceStart anchor)).goal [.bareEntries])
        else if block && token == some .blockSequenceStart then
          some ((r.skip.emit (.sequenceStart anchor)).goal [.blockEntries])
        else if block && token == some .blockMappingStart then
          some ((r.skip.emit (.mappingStart anchor)).goal [.blockKey])
        else if anchor.isSome || tag.isSome then some (r.emit (.scalar anchor "" true))
        else none

def readBlockEntries : Option Reader :=
  match r.next with
  | some .blockEntry =>
      some (r.skip.nodeUnless [.blockEntry, .blockEnd] (.node true false) .blockEntries)
  | some .blockEnd => some (r.skip.emit .sequenceEnd)
  | _ => none

def readBareEntries : Option Reader :=
  match r.next with
  | some .blockEntry =>
      some (r.skip.nodeUnless [.blockEntry, .key, .value, .blockEnd] (.node true false) .bareEntries)
  | _ => some (r.emit .sequenceEnd)

def readBlockKey : Option Reader :=
  match r.next with
  | some .key => some (r.skip.nodeUnless [.key, .value, .blockEnd] (.node true true) .blockValue)
  | some .blockEnd => some (r.skip.emit .mappingEnd)
  | _ => none

def readBlockValue : Option Reader :=
  match r.next with
  | some .value => some (r.skip.nodeUnless [.key, .value, .blockEnd] (.node true true) .blockKey)
  | _ => some (r.emitEmpty.goal [.blockKey])

/-- Passes over the comma in front of every entry but the first. -/
def separated (first : Bool) : Option Reader :=
  if first then some r else if r.next == some .flowEntry then some r.skip else none

def readFlowEntries (first : Bool) : Option Reader :=
  if r.next == some .flowSequenceEnd then some (r.skip.emit .sequenceEnd)
  else (r.separated first).bind fun r =>
    match r.next with
    | some .key => some ((r.skip.emit (.mappingStart none)).goal [.pairKey, .flowEntries false])
    | some .flowSequenceEnd => some (r.skip.emit .sequenceEnd)
    | _ => some (r.goal [.node false false, .flowEntries false])

/-- The key of a pair; a key that is not written takes the token behind it along. -/
def readPairKey : Option Reader :=
  if r.next.any [Token.value, .flowEntry, .flowSequenceEnd].contains then
    some (r.skip.emitEmpty.goal [.pairValue])
  else some (r.goal [.node false false, .pairValue])

def readPairValue : Option Reader :=
  match r.next with
  | some .value =>
      some (r.skip.nodeUnless [.flowEntry, .flowSequenceEnd] (.node false false) .pairEnd)
  | _ => some (r.emitEmpty.goal [.pairEnd])

def readFlowKey (first : Bool) : Option Reader :=
  if r.next == some .flowMappingEnd then some (r.skip.emit .mappingEnd)
  else (r.separated first).bind fun r =>
    match r.next with
    | some .key =>
        some (r.skip.nodeUnless [.value, .flowEntry, .flowMappingEnd] (.node false false) .flowValue)
    | some .flowMappingEnd => some (r.skip.emit .mappingEnd)
    | _ => some (r.goal [.node false false, .noValue])

def readFlowValue : Option Reader :=
  match r.next with
  | some .value =>
      some (r.skip.nodeUnless [.flowEntry, .flowMappingEnd] (.node false false) (.flowKey false))
  | _ => some (r.emitEmpty.goal [.flowKey false])

/-- Reads what a goal asks for, as far as one turn goes. -/
def read : Goal → Option Reader
  | .document first => r.readDocument first
  | .content => r.readContent
  | .closing => r.readClosing
  | .node block bare => r.readNode block bare
  | .blockEntries => r.readBlockEntries
  | .bareEntries => r.readBareEntries
  | .blockKey => r.readBlockKey
  | .blockValue => r.readBlockValue
  | .flowEntries first => r.readFlowEntries first
  | .flowKey first => r.readFlowKey first
  | .flowValue => r.readFlowValue
  | .noValue => some (r.emitEmpty.goal [.flowKey false])
  | .pairKey => r.readPairKey
  | .pairValue => r.readPairValue
  | .pairEnd => some (r.emit .mappingEnd)

/-- Reads until no goal is left. -/
def run : Nat → Reader → Option (List (List Event))
  | 0, _ => none
  | turns + 1, r =>
    match r.goals with
    | [] => some r.documents.reverse
    | goal :: goals => ({ r with goals }.read goal).bind (run turns)

end Reader

/-- The events of each document in a stream. A turn that takes no token leaves goals that do, so a
few turns for each token are enough. -/
def Event.ofTokens? (tokens : List Token) : Option (List (List Event)) :=
  Reader.run (8 * tokens.length + 16) { tokens }

end DecodeTables.Yaml
