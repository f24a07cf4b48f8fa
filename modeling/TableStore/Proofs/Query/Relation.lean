import Mathlib.Data.List.ProdSigma
import TableStore.Query.Join

/-!
# Joins of relations

A relation is what a query sees of a table: a name, columns with their types, and rows. Which
columns are constrained, and so which of them carry an index, is not part of it.

* `Relation.related?`   the columns that `ON` compares, one of each relation;
* `Relation.meets`      when two rows belong together;
* `Relation.field?`     the column that a reference means: `t.c` is column `c` of the relation `t`,
                        and `c` alone is the one of the left relation if it has one;
* `Relation.join`       all pairs of rows that belong together, left rows first, then those that
                        satisfy the condition, then what the projection asks for.
-/

namespace TableStore

open Sql

/-- a name, columns with their types, and rows -/
structure Relation where
  name : String
  columns : List (String × DataType)
  rows : List Row
  deriving DecidableEq

/-- what a query sees of a table -/
def Table.relation (t : Table) : Relation where
  name := t.name
  columns := t.schema.columns.map fun d => (d.name, d.type)
  rows := t.rows

/-- a row of the left relation with one of the right -/
abbrev RowPair := Row × Row

def RowPair.joined (p : RowPair) : List Value := p.1.values ++ p.2.values

inductive Side where
  | left | right
  deriving DecidableEq

structure Field where
  side : Side
  column : String
  type : DataType
  deriving DecidableEq

/-- the value of a field in a pair of rows -/
def Field.value? (f : Field) (p : RowPair) : Option Value :=
  match f.side with
  | .left => p.1.get? f.column
  | .right => p.2.get? f.column

namespace Relation

def type? (r : Relation) (column : String) : Option DataType := r.columns.lookup column

/-- the name under which a column stands in a joined row -/
def label (r : Relation) (column : String) : String := ColumnRef.label ⟨some r.name, column⟩

/-- the names under which all columns stand in a joined row -/
def labels (r : Relation) : List String := r.columns.map fun c => r.label c.1

/-- the column of the relation that a reference means, as an operand of `ON` -/
def operand? (r : Relation) (ref : ColumnRef) : Option (String × DataType) :=
  (ref.columnIn? r.name).bind fun column => (r.type? column).map fun type => (column, type)

variable (l r : Relation)

/-- the columns that `ON` compares: the first operand is of the left relation and the second of the
right one, or else it is the other way round -/
def related? (j : JoinClause) : Option ((String × DataType) × (String × DataType)) :=
  match l.operand? j.left, r.operand? j.right with
  | some a, some b => some (a, b)
  | _, _ =>
    match l.operand? j.right, r.operand? j.left with
    | some a, some b => some (a, b)
    | _, _ => none

/-- the left key is not empty, can be brought to the type of the right column, and is the right
key then -/
def meets (a b : String × DataType) (p : RowPair) : Bool :=
  match p.1.get? a.1, p.2.get? b.1 with
  | some v, some w => v ≠ .null ∧ b.2.coerce? v = some w
  | _, _ => false

/-- the field that a reference means -/
def field? (ref : ColumnRef) : Option Field :=
  let left := (l.type? ref.column).map (Field.mk .left ref.column)
  let right := (r.type? ref.column).map (Field.mk .right ref.column)
  match ref.table with
  | none => left.or right
  | some t => if t = l.name then left else if t = r.name then right else none

def fieldLabel (f : Field) : String :=
  match f.side with
  | .left => l.label f.column
  | .right => r.label f.column

/-- the field that a reference means, or the failure that there is none -/
def field (ref : ColumnRef) : Except Error Field :=
  match field? l r ref with
  | some f => .ok f
  | none => .error (.column (.unknownInJoin ref))

def keep (condition : Option Condition) (pairs : List RowPair) : Except Error (List RowPair) :=
  match condition with
  | none => .ok pairs
  | some k =>
    match field l r k.column with
    | .error e => .error e
    | .ok f =>
      match f.type.coerce? k.value with
      | none => .error (.type (fieldLabel l r f) (.notCoercible k.value f.type))
      | some v => .ok (pairs.filter fun p => (f.value? p).any (k.op.holds · v))

def narrow (projection : Projection) (pairs : List RowPair) : Except Error QueryResult :=
  match projection with
  | .all => .ok ⟨l.labels ++ r.labels, pairs.map RowPair.joined⟩
  | .columns refs =>
    (refs.mapM (field l r)).map fun fields =>
      ⟨refs.map (·.label), pairs.map fun p => fields.map fun f => (f.value? p).getD .null⟩

def join (q : Select) (j : JoinClause) : Except Error QueryResult :=
  match related? l r j with
  | none => .error (.column (.unrelated j.left j.right l.name r.name))
  | some (a, b) =>
    match keep l r q.condition ((l.rows.product r.rows).filter (meets a b)) with
    | .error e => .error e
    | .ok pairs => narrow l r q.projection pairs

end Relation

end TableStore
