import TableStore.Outcome
import TableStore.Column.Def

/-!
# Indexes

An index maps each value of one column to the positions of the rows that hold it, in ascending
order. No bucket is empty. A unique index admits one position per value; the empty value may stand
anywhere.

* `Index.add`, `remove`   record and forget a position;
* `Index.move`            from one value to another, putting the old entry back if that is refused;
* `Index.rebuild`         from the values of all rows.
-/

namespace TableStore

/-- a number into an ascending list, once -/
def insertAscending (n : Nat) : List Nat → List Nat
  | [] => [n]
  | m :: ms =>
    if n < m then n :: m :: ms
    else if n = m then m :: ms
    else m :: insertAscending n ms

/-- the positions of each value of a column -/
structure Index where
  column : String
  isPrimaryKey : Bool
  isUnique : Bool
  buckets : List (Value × List Nat)
  deriving DecidableEq

namespace Index

/-- an index without entries; a primary key is unique -/
def empty (column : String) (isPrimaryKey isUnique : Bool) : Index :=
  ⟨column, isPrimaryKey, isUnique || isPrimaryKey, []⟩

def ofDef (d : ColumnDef) : Index := empty d.name d.isPrimaryKey d.isUnique

/-- the positions of a value, ascending -/
def find (i : Index) (v : Value) : List Nat := (i.buckets.lookup v).getD []

/-- some row holds the value -/
def has (i : Index) (v : Value) : Bool := (i.buckets.lookup v).isSome

def size (i : Index) : Nat := i.buckets.foldr (fun b n => b.2.length + n) 0

def isEmpty (i : Index) : Bool := i.buckets.isEmpty

/-- the failure of a value that a row holds already -/
def duplicate (i : Index) (v : Value) : Error :=
  .constraint i.column (.duplicate i.isPrimaryKey v)

/-- one more position in the bucket of a value -/
def addTo (v : Value) (pos : Nat) : List (Value × List Nat) → List (Value × List Nat)
  | [] => [(v, [pos])]
  | b :: bs => if b.1 = v then (v, insertAscending pos b.2) :: bs else b :: addTo v pos bs

/-- one position less in the bucket of a value; the last one takes the bucket with it -/
def removeFrom (v : Value) (pos : Nat) : List (Value × List Nat) → List (Value × List Nat)
  | [] => []
  | b :: bs =>
    if b.1 = v then
      match b.2.filter (· ≠ pos) with
      | [] => bs
      | ps => (v, ps) :: bs
    else b :: removeFrom v pos bs

/-- records that a row holds a value, whoever else does -/
def record (i : Index) (v : Value) (pos : Nat) : Index :=
  { i with buckets := addTo v pos i.buckets }

def remove (i : Index) (v : Value) (pos : Nat) : Index :=
  { i with buckets := removeFrom v pos i.buckets }

/-- records that a row holds a value, unless another row does and the index is unique -/
def add (i : Index) (v : Value) (pos : Nat) : Except Error Index :=
  if i.isUnique && !v.isNull && (i.find v).any (· ≠ pos) then .error (i.duplicate v)
  else .ok (i.record v pos)

/-- moves a row from one value to another -/
def move (i : Index) (old new : Value) (pos : Nat) : Outcome Index Unit :=
  if old = new then .ok () i
  else
    let freed := i.remove old pos
    match freed.add new pos with
    | .ok i => .ok () i
    | .error e => .fail e (freed.record old pos)

def clear (i : Index) : Index := { i with buckets := [] }

/-- adds the values of the rows from `pos` on, stopping at the first that is refused -/
def addAll (i : Index) (pos : Nat) : List Value → Outcome Index Unit
  | [] => .ok () i
  | v :: vs =>
    match i.add v pos with
    | .ok i => i.addAll (pos + 1) vs
    | .error e => .fail e i

/-- the index of these values, row by row -/
def rebuild (i : Index) (values : List Value) : Outcome Index Unit :=
  i.clear.addAll 0 values

end Index

end TableStore
