import DecodeTables.Word

/-!
# Trial orders

When the instructions of an opcode have several masks, a decoder tries the masks in turn. A
`TrialOrder` says which mask comes first. Both orders are total: masks that neither puts before the
other are equal.
-/

namespace DecodeTables

/-- How the masks of an opcode are ranked. -/
inductive TrialOrder where
  /-- More set bits first; of equally many, the larger number. -/
  | specificity
  /-- The larger number first. -/
  | numericDescending
  deriving DecidableEq, Repr

namespace TrialOrder

def all : List TrialOrder := [specificity, numericDescending]

def name : TrialOrder → String
  | specificity => "specificity"
  | numericDescending => "numeric-descending"

def ofName? (text : String) : Option TrialOrder := all.find? fun order => order.name == text

/-- Whether a mask may be tried before another; equal masks may come in either order. -/
def le : TrialOrder → Word → Word → Bool
  | specificity, a, b => b.ones < a.ones || (a.ones == b.ones && b ≤ a)
  | numericDescending, a, b => b ≤ a

/-- Masks in the order in which they are tried. -/
def sort (order : TrialOrder) (masks : List Word) : List Word := masks.mergeSort order.le

end TrialOrder

end DecodeTables
