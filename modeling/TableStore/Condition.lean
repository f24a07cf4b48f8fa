import TableStore.ColumnRef
import TableStore.Value

/-!
# Conditions

* `Comparison.holds`   equality is of values, so an empty cell equals an empty literal; the four
  ordering operators need two values of one type.
-/

namespace TableStore

inductive Comparison where
  | equal | notEqual | greater | less | greaterEqual | lessEqual
  deriving DecidableEq, Repr

namespace Comparison

/-- every operator once -/
def all : List Comparison := [equal, notEqual, greater, less, greaterEqual, lessEqual]

def spelling : Comparison → String
  | equal => "="
  | notEqual => "!="
  | greater => ">"
  | less => "<"
  | greaterEqual => ">="
  | lessEqual => "<="

/-- a cell stands in the relation to a literal -/
def holds : Comparison → Value → Value → Bool
  | equal, l, r => l = r
  | notEqual, l, r => l ≠ r
  | greater, l, r => (l.compare? r).any (·.isGT)
  | less, l, r => (l.compare? r).any (·.isLT)
  | greaterEqual, l, r => (l.compare? r).any (·.isGE)
  | lessEqual, l, r => (l.compare? r).any (·.isLE)

end Comparison

structure Condition where
  column : ColumnRef
  op : Comparison
  value : Value
  deriving DecidableEq

end TableStore
