import DecodeTables.Yaml.Event

/-!
# YAML nodes

A `Document` is the tree of nodes of the one document in a stream, with what its aliases stand for. An
anchor gets a number that is the count of names anchored so far, and an alias takes the number that
its name has at that point; it stands for the last node that gets this number. So an alias can stand
for a node after it if a name is anchored twice.
-/

namespace DecodeTables.Yaml

/-- A node. An alias holds the number of an anchor. -/
inductive Node where
  | scalar (text : String) (plain : Bool)
  | alias (number : Nat)
  | sequence (items : List Node)
  | mapping (members : List (Node × Node))

/-- The nodes of a document, and what stands behind the numbers of its anchors. -/
structure Document where
  /-- The root; a stream may hold no document. -/
  root : Option Node
  /-- The anchored nodes by the index of their first event. -/
  anchored : List (Nat × Node)
  /-- The index of the first event of the last node with each number. -/
  numbered : List (Nat × Nat)
  events : Nat

/-- A collection that is still open, with what it holds so far, last first. -/
inductive OpenNode where
  | sequence (items : List Node)
  | mapping (members : List (Node × Node))
  /-- A mapping with a key that still has no value. -/
  | keyed (members : List (Node × Node)) (key : Node)

/-- How far the events of a document have been put together. -/
structure Builder where
  /-- The open collections, innermost first, with the index of the first event of an anchored one. -/
  stack : List (OpenNode × Option Nat) := []
  root : Option Node := none
  /-- The names that have been anchored, each once, with their numbers. -/
  names : List (String × Nat) := []
  /-- The indices that have been given to numbers, last first. -/
  numbered : List (Nat × Nat) := []
  anchored : List (Nat × Node) := []
  events : Nat := 0

namespace Builder

variable (b : Builder)

/-- Puts a node into the innermost collection. -/
def add (node : Node) : Builder :=
  match b.stack with
  | (.sequence items, first) :: stack =>
      { b with stack := (.sequence (node :: items), first) :: stack }
  | (.mapping members, first) :: stack =>
      { b with stack := (.keyed members node, first) :: stack }
  | (.keyed members key, first) :: stack =>
      { b with stack := (.mapping ((key, node) :: members), first) :: stack }
  | [] => { b with root := some node }

/-- Adds a node that is complete, and keeps it if it is anchored. -/
def complete (first : Option Nat) (node : Node) : Builder :=
  let b := match first with
    | some index => { b with anchored := (index, node) :: b.anchored }
    | none => b
  b.add node

/-- Gives the number of the next anchor to a name, and the current event to that number. -/
def anchor (name : Option String) : Builder × Option Nat :=
  match name with
  | some name =>
    let number := b.names.length
    ({ b with
      names := (name, number) :: b.names.filter (fun e => e.1 ≠ name)
      numbered := (number, b.events) :: b.numbered }, some b.events)
  | none => (b, none)

/-- Takes in the next event. -/
def step (event : Event) : Option Builder :=
  let done (b : Builder) : Builder := { b with events := b.events + 1 }
  match event with
  | .scalar name text plain =>
      let (b, first) := b.anchor name
      some (done (b.complete first (.scalar text plain)))
  | .alias name =>
      (b.names.lookup name).map fun number => done (b.add (.alias number))
  | .sequenceStart name =>
      let (b, first) := b.anchor name
      some (done { b with stack := (.sequence [], first) :: b.stack })
  | .mappingStart name =>
      let (b, first) := b.anchor name
      some (done { b with stack := (.mapping [], first) :: b.stack })
  | .sequenceEnd =>
      match b.stack with
      | (.sequence items, first) :: stack =>
          some (done ({ b with stack }.complete first (.sequence items.reverse)))
      | _ => none
  | .mappingEnd =>
      match b.stack with
      | (.mapping members, first) :: stack =>
          some (done ({ b with stack }.complete first (.mapping members.reverse)))
      | _ => none

end Builder

namespace Document

def ofEvents? (events : List Event) : Option Document :=
  (events.foldlM Builder.step {}).map fun b =>
    { root := b.root, anchored := b.anchored, numbered := b.numbered, events := b.events }

/-- The document of a stream, which must not hold two. -/
def parse? (text : String) : Option Document := do
  let tokens ← Token.scan? text
  match ← Event.ofTokens? tokens with
  | [] => some { root := none, anchored := [], numbered := [], events := 1 }
  | [events] => ofEvents? events
  | _ => none

/-- The node that a number of an anchor stands for. -/
def target? (d : Document) (number : Nat) : Option Node :=
  (d.numbered.lookup number).bind fun index => d.anchored.lookup index

end Document

end DecodeTables.Yaml
