import DecodeTables.Defect

/-!
# Numbering identifiers

A `Numbering` gives the identifiers of a description the ordinals from zero upwards, in the order in
which they are listed, and one more, `terminal`, that stands for no identifier. Generated sources
name an identifier by its `symbol`, so no two identifiers may share one.
-/

namespace DecodeTables

/-- The name of an identifier in generated sources: upper case, with an underscore for each character
that is neither an ASCII letter nor an ASCII digit. -/
def symbol (name : String) : String :=
  String.ofList (name.toList.map fun c => if c.isAlphanum then c.toUpper else '_')

/-- Identifiers in the order of their ordinals. -/
structure Numbering where
  names : List String
  nodup : (names.map symbol).Nodup

namespace Numbering

variable (n : Numbering)

def size : Nat := n.names.length

/-- The ordinal after the last identifier. It sizes tables with a row per identifier. -/
def terminal : Nat := n.names.length

def ordinal? (name : String) : Option Nat := n.names.idxOf? name

def name? (ordinal : Nat) : Option String := n.names[ordinal]?

def empty : Numbering := ⟨[], by simp⟩

/-- Gives the next ordinal to a name, unless the name or its symbol is taken. -/
def push (name : String) : Except Defect Numbering :=
  if name ∈ n.names then .error (.malformed name .listedTwice)
  else match h : n.names.find? fun earlier => symbol earlier == symbol name with
    | some earlier => .error (.malformed name (.symbolTaken (symbol name) earlier))
    | none => .ok ⟨n.names ++ [name], by
        have hn := n.nodup
        simp only [List.map_append, List.map_cons, List.map_nil, List.nodup_append]
        refine ⟨hn, by simp, fun a ha b hb => ?_⟩
        simp only [List.mem_singleton] at hb
        obtain ⟨earlier, hmem, rfl⟩ := List.mem_map.1 ha
        have hne := List.find?_eq_none.1 h earlier hmem
        simpa [hb] using hne⟩

/-- Numbers names in order; the first name that cannot be numbered is the defect. -/
def ofNames (names : List String) : Except Defect Numbering := names.foldlM push empty

end Numbering

end DecodeTables
