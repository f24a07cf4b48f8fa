/-!
# References to columns

* `ColumnRef.label`       `column`, or `table.column`;
* `ColumnRef.columnIn?`   the column meant in a given table, unless the reference names another.
-/

namespace TableStore

/-- a column name, perhaps with the name of its table -/
structure ColumnRef where
  table : Option String
  column : String
  deriving DecidableEq

namespace ColumnRef

def label (r : ColumnRef) : String :=
  match r.table with
  | none => r.column
  | some t => t ++ "." ++ r.column

/-- the column that a reference means in the table called `table` -/
def columnIn? (r : ColumnRef) (table : String) : Option String :=
  match r.table with
  | none => some r.column
  | some t => if t = table then some r.column else none

end ColumnRef

end TableStore
