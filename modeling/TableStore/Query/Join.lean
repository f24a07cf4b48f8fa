import TableStore.Query.Result
import TableStore.Table.Find

/-!
# Joins of two tables

Every field of a joined row is labelled `table.column`. Each row of the left table is paired with
the rows of the right table that hold its key, brought to the type of the right column; an empty
key, and one that cannot be brought to that type, has no partner. The partners come from the index
of the right column if there is one, and otherwise from a look at every row.

* `Layout.resolve?`   the field that a reference means: the exact label, then the left table, then
  the right one;
* `Join.pairs`        the joined rows;
* `Join.run`          the answer to a query with a join.
-/

namespace TableStore

open Sql

/-- the fields of a joined row -/
structure Layout where
  left : String
  right : String
  labels : List String
  types : List DataType
  deriving DecidableEq

namespace Layout

def labelOf (table column : String) : String := table ++ "." ++ column

/-- the columns of two tables, the left ones first -/
def ofTables (l r : Table) : Layout where
  left := l.name
  right := r.name
  labels := l.schema.columns.map (fun d => labelOf l.name d.name)
    ++ r.schema.columns.map (fun d => labelOf r.name d.name)
  types := (l.schema.columns ++ r.schema.columns).map (·.type)

def position? (y : Layout) (label : String) : Option Nat := y.labels.findIdx? (· = label)

def resolve? (y : Layout) (r : ColumnRef) : Option Nat :=
  match r.table with
  | some _ => y.position? r.label
  | none =>
    (y.position? r.column).or
      ((y.position? (labelOf y.left r.column)).or (y.position? (labelOf y.right r.column)))

/-- the field that a reference means, or the failure that there is none -/
def resolve (y : Layout) (r : ColumnRef) : Except Error Nat :=
  match y.resolve? r with
  | some i => .ok i
  | none => .error (.column (.unknownInJoin r))

def resolveAll (y : Layout) : List ColumnRef → Except Error (List Nat)
  | [] => .ok []
  | r :: rs =>
    match y.resolve r with
    | .error e => .error e
    | .ok i => (y.resolveAll rs).map (i :: ·)

end Layout

namespace Join

/-- the columns that the two sides of `ON` mean, one of each table, written in either order -/
def columns (l r : Table) (j : JoinClause) : Except Error (Nat × Nat) :=
  match l.resolve? j.left, r.resolve? j.right with
  | some i, some k => .ok (i, k)
  | _, _ =>
    match l.resolve? j.right, r.resolve? j.left with
    | some i, some k => .ok (i, k)
    | _, _ => .error (.column (.unrelated j.left j.right l.name r.name))

/-- the key of a left row, brought to the type of the right column -/
def key? (type : DataType) (v : Value) : Option Value :=
  if v.isNull then none else type.coerce? v

/-- the right rows that hold a key -/
def partners (r : Table) (right : Nat) (rows : List Row) (key : Value) : List Row :=
  match r.schema.columns[right]?.bind fun d => r.index? d.name with
  | some i => (i.find key).filterMap fun pos => rows[pos]?
  | none => rows.filter fun row => row.values[right]? = some key

/-- the joined rows, by left position and then by right position -/
def pairs (l r : Table) (left right : Nat) (type : DataType) : List (List Value) :=
  let rightRows := r.rows
  l.rows.flatMap fun row =>
    match (row.values[left]?).bind (key? type) with
    | none => []
    | some key => (partners r right rightRows key).map fun partner => row.values ++ partner.values

/-- the joined rows that satisfy a condition -/
def filter (y : Layout) (rows : List (List Value)) :
    Option Condition → Except Error (List (List Value))
  | none => .ok rows
  | some c =>
    match y.resolve c.column with
    | .error e => .error e
    | .ok i =>
      match y.types[i]?, y.labels[i]? with
      | some type, some label =>
        match type.coerce? c.value with
        | none => .error (.type label (.notCoercible c.value type))
        | some v => .ok (rows.filter fun row => c.op.holds (row[i]?.getD .null) v)
      | _, _ => .error (.internal (.columnOutOfBounds i))

/-- joined rows narrowed to a projection -/
def project (y : Layout) (rows : List (List Value)) : Projection → Except Error QueryResult
  | .all => .ok ⟨y.labels, rows⟩
  | .columns refs =>
    (y.resolveAll refs).map fun positions =>
      ⟨refs.map (·.label), rows.map (pick positions)⟩

/-- the answer to a query of two tables -/
def ofTables (l r : Table) (q : Select) (j : JoinClause) : Except Error QueryResult :=
  if l.name = r.name then .error (.schema (.selfJoin l.name))
  else
    match columns l r j with
    | .error e => .error e
    | .ok (left, right) =>
      match r.schema.columns[right]? with
      | none => .error (.internal (.columnOutOfBounds right))
      | some d =>
        let y := Layout.ofTables l r
        match filter y (pairs l r left right d.type) q.condition with
        | .error e => .error e
        | .ok rows => project y rows q.projection

def run (db : Database) (q : Select) (j : JoinClause) : Except Error QueryResult :=
  match db.table q.table with
  | .error e => .error e
  | .ok l =>
    match db.table j.table with
    | .error e => .error e
    | .ok r => ofTables l r q j

end Join

end TableStore
