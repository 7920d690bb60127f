import DecodeTables.Description.Yaml
import DecodeTables.Proofs.Members
import Mathlib

/-!
# Readings that count aliases

A reader of YAML counts the aliases that it follows and gives up at a limit. Here what it reads is told
without the count: a node stands for a text, a list of texts, a mapping or an entry, whatever was read
before (`Document.text?`, `Document.texts?`, `Document.named?`, `Document.entryOf?`), and following
aliases to get at it takes a number of them that is a sum over the nodes in question
(`Document.aliases` for a whole document). A reading has this value and takes this number wherever the
limit is not passed, and fails where it is (`Description.Counts`). The laws of `Counts` go along with
the ways in which readings are put together.
-/

namespace DecodeTables

namespace Yaml

namespace Node

/-- The items of a sequence; an empty plain scalar is a sequence too. -/
def items? : Node → Option (List Node)
  | .sequence items => some items
  | .scalar "" true => some []
  | _ => none

/-- The members of a mapping; an empty plain scalar is a mapping too. -/
def members? : Node → Option (List (Node × Node))
  | .mapping members => some members
  | .scalar "" true => some []
  | _ => none

/-- How many aliases are followed to get at what a node stands for. -/
def aliases : Node → Nat
  | .alias _ => 1
  | _ => 0

end Node

namespace Document

variable (d : Document)

/-! ## What nodes stand for -/

/-- What a node stands for: itself, unless it is an alias. -/
def behind? : Node → Option Node
  | .alias number => d.target? number
  | node => some node

def text? (node : Node) : Option String :=
  (d.behind? node).bind fun
    | .scalar text _ => some text
    | _ => none

def items? (node : Node) : Option (List Node) := (d.behind? node).bind Node.items?

def texts? (node : Node) : Option (List String) :=
  (d.items? node).bind fun items => items.mapM d.text?

def members? (node : Node) : Option (List (Node × Node)) := (d.behind? node).bind Node.members?

/-- The members of a mapping under the texts of their names, which must all be texts. -/
def named? (node : Node) : Option (List (String × Node)) :=
  (d.members? node).bind fun members =>
    members.mapM fun member => (d.text? member.1).map fun name => (name, member.2)

def entryOf? (node : Node) : Option Entry :=
  (d.named? node).bind (Entry.ofMembers d.text? d.texts?)

/-! ## How many aliases are followed -/

def textsAliases (node : Node) : Nat :=
  node.aliases + (d.items? node).elim 0 fun items => (items.map Node.aliases).sum

/-- For the names of a mapping; its values are left where they are. -/
def namesAliases (node : Node) : Nat :=
  node.aliases + (d.members? node).elim 0 fun members =>
    (members.map fun member => member.1.aliases).sum

/-- For the values of the members with a name. -/
def memberAliases (aliases : Node → Nat) (named : List (String × Node)) (name : String) : Nat :=
  ((named.filter fun m => m.1 == name).map fun m => aliases m.2).sum

/-- For the values that an entry knows; others are not looked at. -/
def knownAliases (named : List (String × Node)) : Nat :=
  (["encoding", "match", "mask"].map (memberAliases Node.aliases named)).sum +
    (["variable_fields", "extension"].map (memberAliases d.textsAliases named)).sum

def entryAliases (node : Node) : Nat :=
  d.namesAliases node + (d.named? node).elim 0 d.knownAliases

/-- For the entries in a mapping. -/
def itemsAliases (node : Node) : Nat :=
  d.namesAliases node + (d.named? node).elim 0 fun named =>
    (named.map fun m => d.entryAliases m.2).sum

/-- For the whole document. -/
def aliases : Nat := d.root.elim 0 d.itemsAliases

end Document

end Yaml

namespace Description

open Yaml

variable {α β : Type} {d : Document} {limit aliases : Nat}

/-! ## Readings with a limit -/

/-- A reading follows a number of aliases and gives a value, if there is one. It fails if it starts
from a count of aliases from which this number would pass the limit. -/
def Counts (limit : Nat) (read : Read α) (value : Option α) (aliases : Nat) : Prop :=
  ∀ count ≤ limit, read.run count =
    if count + aliases ≤ limit then value.map (·, count + aliases) else none

namespace Counts

theorem pure (a : α) : Counts limit (Pure.pure a) (some a) 0 := by
  intro count small
  rw [Nat.add_zero, if_pos small]
  rfl

theorem failure : Counts limit (Alternative.failure : Read α) none aliases := by
  intro count small
  rw [Option.map_none, ite_self]
  rfl

theorem lift (value : Option α) : Counts limit (liftM value : Read α) value 0 := by
  intro count small
  rw [Nat.add_zero, if_pos small]
  cases value <;> rfl

theorem bind {read : Read α} {value : Option α} {next : α → Read β} {value' : α → Option β}
    {aliases' : Nat} (first : Counts limit read value aliases)
    (rest : ∀ a, value = some a → Counts limit (next a) (value' a) aliases') :
    Counts limit (read >>= next) (value.bind value') (aliases + aliases') := by
  intro count small
  rw [StateT.run_bind, first count small]
  by_cases passed : count + aliases ≤ limit
  · rw [if_pos passed, ← Nat.add_assoc]
    cases value with
    | none => simp
    | some a => exact rest a rfl (count + aliases) passed
  · rw [if_neg passed, if_neg (by omega)]
    rfl

theorem bind_pure {read : Read α} {value : Option α} (first : Counts limit read value aliases)
    (f : α → β) : Counts limit (read >>= fun a => Pure.pure (f a)) (value.map f) aliases := by
  rw [Option.map_eq_bind]
  exact first.bind fun a _ => .pure (f a)

theorem mapM {read : α → Read β} {value : α → Option β} {aliases : α → Nat}
    (each : ∀ a, Counts limit (read a) (value a) (aliases a)) (items : List α) :
    Counts limit (items.mapM read) (items.mapM value) (items.map aliases).sum := by
  induction items with
  | nil => exact .pure []
  | cons item rest ih =>
    rw [List.mapM_cons, List.mapM_cons, List.map_cons, List.sum_cons]
    exact (each item).bind fun head _ => ih.bind fun tail _ => .pure (head :: tail)

/-- A reading from the start gives its value unless that takes too many aliases. -/
theorem run'_eq_some_iff {read : Read α} {value : Option α} {a : α}
    (counted : Counts limit read value aliases) :
    read.run' 0 = some a ↔ value = some a ∧ aliases ≤ limit := by
  rw [StateT.run'_eq, counted 0 (Nat.zero_le limit), Nat.zero_add]
  by_cases passed : aliases ≤ limit <;> simp [passed]

end Counts

/-! ## What is read of a node -/

theorem counts_follow (node : Node) :
    Counts (100 * d.events) (follow d node) (d.behind? node) node.aliases := by
  match node with
  | .alias number =>
    intro count small
    change (follow d (.alias number)).run count =
      if count + 1 ≤ 100 * d.events then (d.target? number).map (·, count + 1) else none
    by_cases room : count < 100 * d.events
    · rw [if_pos (Nat.succ_le_of_lt room)]
      cases target : d.target? number <;> simp [follow, room, target]
    · rw [if_neg (by omega)]
      simp [follow, room]
  | .scalar _ _ | .sequence _ | .mapping _ => exact .pure _

theorem counts_yamlText (node : Node) :
    Counts (100 * d.events) (yamlText d node) (d.text? node) node.aliases := by
  rw [← Nat.add_zero node.aliases]
  refine (counts_follow node).bind fun target _ => ?_
  cases target with
  | scalar text plain => exact .pure text
  | _ => exact .failure

theorem counts_yamlTexts (node : Node) :
    Counts (100 * d.events) (yamlTexts d node) (d.texts? node) (d.textsAliases node) := by
  rw [Document.texts?, Document.textsAliases, Document.items?, Option.bind_assoc]
  refine (counts_follow node).bind fun target found => ?_
  rw [found, Option.bind_some]
  split
  · exact .mapM counts_yamlText _
  · exact .pure []
  · simp only [Node.items?]
    exact .failure

theorem counts_yamlMembers (node : Node) :
    Counts (100 * d.events) (yamlMembers d node) (d.named? node) (d.namesAliases node) := by
  rw [Document.named?, Document.namesAliases, Document.members?, Option.bind_assoc]
  refine (counts_follow node).bind fun target found => ?_
  rw [found, Option.bind_some]
  split
  · exact .mapM (fun (key, _) => (counts_yamlText key).bind_pure _) _
  · exact .pure []
  · simp only [Node.members?]
    exact .failure

/-! ## What is read of an entry -/

theorem counts_member {read : Node → Read α} {value : Node → Option α} {aliases : Node → Nat}
    (each : ∀ node, Counts limit (read node) (value node) (aliases node))
    {named : List (String × Node)} {name : String} {node : Node}
    (sole : Entry.Sole named name node) :
    Counts limit (read node) (value node) (Document.memberAliases aliases named name) := by
  rw [Document.memberAliases, Entry.filter_eq_singleton_iff.mpr sole, List.map_singleton,
    List.sum_singleton]
  exact each node

theorem counts_textMember (named : List (String × Node)) (name : String) :
    Counts (100 * d.events) (Entry.textMember (yamlText d) named name)
      (Entry.textMember d.text? named name) (Document.memberAliases Node.aliases named name) := by
  rw [← Nat.zero_add (Document.memberAliases _ _ _)]
  exact (Counts.lift _).bind fun v found =>
    counts_member counts_yamlText (Entry.member?_eq_some_iff.mp (Option.join_eq_some_iff.mp found))

theorem counts_textsMember (named : List (String × Node)) (name : String) :
    Counts (100 * d.events) (Entry.textsMember (yamlTexts d) named name)
      (Entry.textsMember d.texts? named name)
      (Document.memberAliases d.textsAliases named name) := by
  rw [← Nat.zero_add (Document.memberAliases _ _ _)]
  refine (Counts.lift _).bind fun found stands => ?_
  cases found with
  | some v => exact counts_member counts_yamlTexts (Entry.member?_eq_some_iff.mp stands)
  | none =>
    have absent := Entry.filter_eq_nil_iff.mpr (Entry.member?_eq_none_iff.mp stands)
    rw [Document.memberAliases, absent]
    exact .pure []

theorem counts_ofMembers (named : List (String × Node)) :
    Counts (100 * d.events) (Entry.ofMembers (yamlText d) (yamlTexts d) named)
      (Entry.ofMembers d.text? d.texts? named) (d.knownAliases named) := by
  -- The sum in the order in which the members are read.
  have sum : d.knownAliases named = Document.memberAliases Node.aliases named "encoding" +
      (Document.memberAliases d.textsAliases named "variable_fields" +
        (Document.memberAliases d.textsAliases named "extension" +
          (Document.memberAliases Node.aliases named "match" +
            (Document.memberAliases Node.aliases named "mask" + 0)))) := by
    simp only [Document.knownAliases, List.map_cons, List.map_nil, List.sum_cons, List.sum_nil]
    omega
  rw [sum]
  exact (counts_textMember _ _).bind fun encoding _ =>
    (counts_textsMember _ _).bind fun variableFields _ =>
      (counts_textsMember _ _).bind fun extensions _ =>
        (counts_textMember _ _).bind fun value _ =>
          (counts_textMember _ _).bind fun mask _ => .pure _

theorem counts_yamlEntry (node : Node) :
    Counts (100 * d.events) (yamlEntry d node) (d.entryOf? node) (d.entryAliases node) := by
  rw [Document.entryOf?, Document.entryAliases]
  refine (counts_yamlMembers node).bind fun named found => ?_
  rw [found]
  exact counts_ofMembers named

theorem counts_items (node : Node) : Counts (100 * d.events)
    (do
      let members ← yamlMembers d node
      members.mapM fun (id, v) => return (id, ← yamlEntry d v))
    ((d.named? node).bind fun named =>
      named.mapM fun (id, v) => (d.entryOf? v).map fun entry => (id, entry))
    (d.itemsAliases node) := by
  rw [Document.itemsAliases]
  refine (counts_yamlMembers node).bind fun named found => ?_
  rw [found]
  exact .mapM (fun (_, v) => (counts_yamlEntry v).bind_pure _) _

end Description

end DecodeTables
