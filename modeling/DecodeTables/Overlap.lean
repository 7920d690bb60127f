import DecodeTables.Table

/-!
# Overlaps

Two instructions overlap if some word carries the literal bits of both. That takes the same opcode and
different masks, and the trial order decides such a word.
-/

namespace DecodeTables

/-- Two instructions, by ordinal, with a word that both match. -/
structure Overlap where
  /-- The instruction whose mask is tried first. -/
  winner : Nat
  shadowed : Nat
  word : Word
  deriving DecidableEq, Repr

namespace Table

variable (t : Table)

/-- The instructions of an opcode: the place of their mask in the trial order, their ordinal and
themselves. -/
def contenders (opcode : Nat) (trials : List Word) : List (Nat × Nat × Instruction) :=
  t.instructions.zipIdx.filterMap fun (i, ordinal) =>
    if i.opcode = opcode then (trials.idxOf? i.mask).map fun rank => (rank, ordinal, i) else none

/-- Whether two instructions have the same bits where both are literal. -/
def agree (a b : Instruction) : Bool := (a.value ^^^ b.value) &&& (a.mask &&& b.mask) == 0

/-- The overlaps among the instructions of an opcode: by winner, then by shadowed instruction. -/
def overlapsAmong (opcode : Nat) (trials : List Word) : List Overlap :=
  let members := t.contenders opcode trials
  members.flatMap fun (rank, winner, a) =>
    members.filterMap fun (otherRank, shadowed, b) =>
      if rank < otherRank && agree a b then
        some { winner, shadowed, word := a.value ||| b.value }
      else none

/-- The overlaps of a table, by opcode. -/
def overlaps : List Overlap :=
  t.plan.trials.flatMap fun (opcode, trials) => t.overlapsAmong opcode trials

end Table

end DecodeTables
