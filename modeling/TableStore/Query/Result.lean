import TableStore.Database.Basic
import TableStore.Sql.Statement

/-!
# Query results

* `QueryResult`     labels, and rows of values under them;
* `Table.project`   rows of a table narrowed to the columns asked for, labelled as they were asked.
-/

namespace TableStore

open Sql

structure QueryResult where
  labels : List String
  rows : List (List Value)
  deriving DecidableEq

namespace QueryResult

def length (r : QueryResult) : Nat := r.rows.length

/-- the same labels with every row -/
def labelled (r : QueryResult) : List Row := r.rows.map fun values => ⟨r.labels, values⟩

end QueryResult

def pick (positions : List Nat) (values : List Value) : List Value :=
  positions.map fun i => values[i]?.getD .null

namespace Table

/-- the place of the column that a reference means in this table -/
def resolve? (t : Table) (r : ColumnRef) : Option Nat :=
  (r.columnIn? t.name).bind t.schema.position?

def resolveAll (t : Table) : List ColumnRef → Except Error (List Nat)
  | [] => .ok []
  | r :: rs =>
    match t.resolve? r with
    | none => .error (.column (.unresolved r t.name))
    | some i => (t.resolveAll rs).map (i :: ·)

/-- rows of the table narrowed to a projection -/
def project (t : Table) (p : Projection) (rows : List Row) : Except Error QueryResult :=
  match p with
  | .all => .ok ⟨t.schema.names, rows.map (·.values)⟩
  | .columns refs =>
    (t.resolveAll refs).map fun positions =>
      ⟨refs.map (·.label), rows.map fun r => pick positions r.values⟩

end Table

end TableStore
