import DecodeTables.Json.Value
import DecodeTables.Overlap

/-!
# Reports

A table as a JSON value: the identifiers, the dispatch plan, the overlaps and the probe table, with
the members of each object in a fixed order.
-/

namespace DecodeTables

open Json

/-- A JSON value to be written. -/
abbrev Report := Value String

def Word.report (w : Word) : Report := .nat w.toNat

def Rule.report (rule : Rule) : Report := .object [
  ("rs1", .bool rule.rs1),
  ("rs2", .bool rule.rs2),
  ("rd", .bool rule.rd),
  ("immediate", .string rule.immediate.name)]

def Overlap.report (o : Overlap) : Report := .object [
  ("winner", .nat o.winner),
  ("shadowed", .nat o.shadowed),
  ("word", Word.report o.word)]

/-- The plan; its opcodes with several masks are the names of an object. -/
def Plan.report (p : Plan) : Report := .object [
  ("order", .string p.order.name),
  ("mask_table", .list Word.report p.maskTable.toList),
  ("trials", .object (p.trials.map fun (opcode, masks) =>
    (toString opcode, .list Word.report masks)))]

namespace Table

variable (t : Table)

def probeReport (p : Probe) : Report := .object [
  ("mask", Word.report p.mask),
  ("match", Word.report p.value),
  ("id", .string (t.name p.ordinal)),
  ("rule", p.rule.report)]

def report : Report := .object [
  ("identifiers", .list .string t.numbering.names),
  ("terminal", .nat t.numbering.terminal),
  ("plan", t.plan.report),
  ("overlaps", .list Overlap.report t.overlaps),
  ("matches", .list t.probeReport t.probes.rows)]

end Table

end DecodeTables
