import DecodeTables.Instruction
import DecodeTables.Numbering

/-!
# Probing words

A `ProbeTable` tells which instruction has a given mask and given literal bits. Its rows are in
ascending order of both, and no two rows agree in both, so a probe has one answer at most.
-/

namespace DecodeTables

/-- What a mask and literal bits stand for. -/
structure Probe where
  mask : Word
  value : Word
  ordinal : Nat
  rule : Rule
  deriving DecidableEq, Repr

namespace Probe

def key (p : Probe) : Word × Word := (p.mask, p.value)

/-- Whether a row comes before another: the smaller mask first, then the smaller literal bits. -/
def before (p q : Probe) : Bool := p.mask < q.mask || (p.mask == q.mask && p.value < q.value)

end Probe

/-- Rows in ascending order of mask and literal bits. -/
structure ProbeTable where
  rows : List Probe
  deriving DecidableEq, Repr

namespace ProbeTable

variable (t : ProbeTable)

def empty : ProbeTable := ⟨[]⟩

def size : Nat := t.rows.length

def isEmpty : Bool := t.rows.isEmpty

/-- The row of a mask and literal bits. -/
def find? (mask value : Word) : Option Probe :=
  t.rows.find? fun p => p.mask == mask && p.value == value

/-- Puts a row in front of the first row that it comes before. -/
def insertRow (p : Probe) : List Probe → List Probe
  | [] => [p]
  | q :: rest => if p.before q then p :: q :: rest else q :: insertRow p rest

/-- Adds the row of an instruction, whose identifier must be numbered and whose mask and literal bits
must be new. -/
def add (numbering : Numbering) (instruction : Instruction) (rule : Rule) :
    Except Defect ProbeTable :=
  match numbering.ordinal? instruction.id with
  | none => .error (.malformed instruction.id .notEnumerated)
  | some ordinal =>
    match t.find? instruction.mask instruction.value with
    | some earlier =>
      .error (.ambiguous ((numbering.name? earlier.ordinal).getD "") instruction.id
        instruction.mask instruction.value)
    | none =>
      .ok ⟨insertRow { mask := instruction.mask, value := instruction.value, ordinal, rule } t.rows⟩

/-- The table of instructions with their rules, taken in order. -/
def build (numbering : Numbering) (items : List (Instruction × Rule)) :
    Except Defect ProbeTable :=
  items.foldlM (fun t item => t.add numbering item.1 item.2) empty

end ProbeTable

end DecodeTables
