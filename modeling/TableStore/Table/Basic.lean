import TableStore.Column.Cells
import TableStore.Index
import TableStore.Row
import TableStore.Schema

/-!
# Tables

A table stores its rows column by column; a row is known by its position alone. Every column with
a constraint carries an index.

* `Table.ofColumns`   the table without rows;
* `Table.row?`        the row at a position;
* `Table.rows`        all rows, by position.
-/

namespace TableStore

/-- a schema with the cells of its columns and their indexes -/
structure Table where
  name : String
  schema : Schema
  columns : List Column
  rowCount : Nat
  indexes : List Index
  deriving DecidableEq

namespace Table

/-- the table of a valid schema, without rows -/
def ofSchema (name : String) (schema : Schema) : Table :=
  { name
    schema
    columns := schema.columns.map fun d => .empty d.type
    rowCount := 0
    indexes := (schema.columns.filter (·.isConstrained)).map .ofDef }

def ofColumns (name : String) (columns : List ColumnDef) : Except Error Table :=
  (Schema.ofColumns columns).map (ofSchema name)

def index? (t : Table) (column : String) : Option Index :=
  t.indexes.find? (·.column = column)

/-- the value in a column and a row; empty outside the table -/
def valueAt (t : Table) (column pos : Nat) : Value :=
  (t.columns[column]?.bind (·.get? pos)).getD .null

/-- the values in a row, when every column has the row -/
def valuesAt (pos : Nat) : List Column → Option (List Value)
  | [] => some []
  | c :: cs =>
    match c.get? pos with
    | none => none
    | some v => (valuesAt pos cs).map (v :: ·)

def row? (t : Table) (pos : Nat) : Option Row :=
  if pos < t.rowCount then
    (valuesAt pos t.columns).map fun values => ⟨t.schema.names, values⟩
  else none

def rows (t : Table) : List Row := (List.range t.rowCount).filterMap t.row?

/-- a step on the index of a column; nothing happens where the column has none -/
def onIndex (column : String) (step : Index → Outcome Index Unit) :
    List Index → Outcome (List Index) Unit
  | [] => .ok () []
  | i :: is =>
    if i.column = column then (step i).within (· :: is)
    else (onIndex column step is).within (i :: ·)

end Table

end TableStore
