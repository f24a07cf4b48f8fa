import TableStore.Condition
import TableStore.Table.Basic

/-!
# Finding rows

* `Table.predicate`   a condition checked against the table: its column found, its literal brought
  to the type of the column;
* `Table.find`        the rows that satisfy a condition, by the index where equality has one;
* `Table.scan`        the same rows without any index.
-/

namespace TableStore

/-- a condition on a table: a place among the columns, and a literal of its type -/
structure Predicate where
  column : Nat
  op : Comparison
  value : Value
  deriving DecidableEq

namespace Table

/-- the predicate that a condition means in this table -/
def predicate (t : Table) (c : Condition) : Except Error Predicate :=
  match c.column.columnIn? t.name with
  | none => .error (.column (.otherTable c.column t.name))
  | some name =>
    match t.schema.position? name, t.schema.column? name with
    | some column, some d => (d.coerce c.value).map fun value => ⟨column, c.op, value⟩
    | _, _ => .error (.column (.unknownIn name t.name))

def satisfies (t : Table) (p : Predicate) (pos : Nat) : Bool :=
  p.op.holds (t.valueAt p.column pos) p.value

/-- the positions whose rows satisfy the predicate, or all of them -/
def matching (t : Table) : Option Predicate → List Nat
  | none => List.range t.rowCount
  | some p => (List.range t.rowCount).filter (t.satisfies p)

def rowsAt (t : Table) (positions : List Nat) : List Row := positions.filterMap t.row?

/-- the index that answers a predicate: one of its column, when it asks for equality -/
def indexFor? (t : Table) (p : Predicate) : Option Index :=
  if p.op = .equal then t.schema.columns[p.column]?.bind fun d => t.index? d.name else none

/-- the rows that satisfy a condition, by position -/
def find (t : Table) : Option Condition → Except Error (List Row)
  | none => .ok t.rows
  | some c =>
    (t.predicate c).map fun p =>
      match t.indexFor? p with
      | some i => t.rowsAt (i.find p.value)
      | none => t.rowsAt (t.matching (some p))

/-- the same rows, looking at each -/
def scan (t : Table) : Option Condition → Except Error (List Row)
  | none => .ok t.rows
  | some c => (t.predicate c).map fun p => t.rowsAt (t.matching (some p))

end Table

end TableStore
