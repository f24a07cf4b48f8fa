import TableStore.Error

/-!
# Rows

* `Row.ofPairs`   the row over given columns that a list of named values describes: every name
  known, none given twice, and what is not given empty.
-/

namespace TableStore

/-- values in the order of their columns -/
structure Row where
  columns : List String
  values : List Value
  deriving DecidableEq

namespace Row

/-- the place of a column; the first one where a name stands twice -/
def position? (columns : List String) (name : String) : Option Nat :=
  columns.findIdx? (· = name)

/-- puts named values into their places; `none` is a place not yet given -/
def place (columns : List String) :
    List (Option Value) → List (String × Value) → Except Error (List (Option Value))
  | given, [] => .ok given
  | given, (name, value) :: pairs =>
    match position? columns name with
    | none => .error (.column (.unknown name))
    | some i =>
      if (given[i]?.bind id).isSome then .error (.column (.repeated name))
      else place columns (given.set i (some value)) pairs

/-- the row that a list of named values describes -/
def ofPairs (columns : List String) (pairs : List (String × Value)) : Except Error Row :=
  match place columns (columns.map fun _ => none) pairs with
  | .error e => .error e
  | .ok given => .ok ⟨columns, given.map (·.getD .null)⟩

def get? (r : Row) (column : String) : Option Value :=
  (position? r.columns column).bind fun i => r.values[i]?

def pairs (r : Row) : List (String × Value) := r.columns.zip r.values

def length (r : Row) : Nat := r.values.length

end Row

end TableStore
