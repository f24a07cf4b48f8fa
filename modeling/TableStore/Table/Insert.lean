import TableStore.Table.Basic

/-!
# Inserting a row

Everything that can be wrong with a row is looked for before the table changes, in the order:
unknown or repeated names, a missing primary key, a value of no fitting type, a value already taken.

* `Table.accept`   the values to store for a list of named values, or the reason against them;
* `Table.insert`   stores them as the last row;
* `Table.ofRows`   the table with given columns and rows.
-/

namespace TableStore

namespace Table

/-- the values of a row brought to the types of their columns -/
def prepareAll : List ColumnDef → List Value → Except Error (List Value)
  | d :: ds, v :: vs =>
    match d.prepare v with
    | .error e => .error e
    | .ok w => (prepareAll ds vs).map (w :: ·)
  | _, _ => .ok []

/-- the failure of the first value that a unique column holds already -/
def taken? (t : Table) : List ColumnDef → List Value → Option Error
  | d :: ds, v :: vs =>
    match t.index? d.name with
    | some i => if !v.isNull && i.has v then some (i.duplicate v) else t.taken? ds vs
    | none => t.taken? ds vs
  | _, _ => none

/-- the primary key of a row is missing -/
def lacksKey? (t : Table) (r : Row) : Option Error :=
  match t.schema.primaryKey? with
  | none => none
  | some d =>
    if ((r.get? d.name).getD .null).isNull then some (.constraint d.name .primaryKeyMissing)
    else none

/-- the values to store for a list of named values -/
def accept (t : Table) (pairs : List (String × Value)) : Except Error (List Value) :=
  match Row.ofPairs t.schema.names pairs with
  | .error e => .error e
  | .ok r =>
    match t.lacksKey? r with
    | some e => .error e
    | none =>
      match prepareAll t.schema.columns r.values with
      | .error e => .error e
      | .ok values =>
        match t.taken? t.schema.columns values with
        | some e => .error e
        | none => .ok values

/-- one more value in each column, up to the first that refuses its value -/
def pushAll : List Column → List Value → Outcome (List Column) Unit
  | c :: cs, v :: vs =>
    match c.push v with
    | .ok c => (pushAll cs vs).within (c :: ·)
    | .error e => .fail e (c :: cs)
  | cs, _ => .ok () cs

/-- stores values as the last row and records them in the indexes -/
def append (t : Table) (values : List Value) : Outcome Table Unit :=
  ((pushAll t.columns values).within fun cs => { t with columns := cs }).andThen fun _ u =>
    let record (dv : ColumnDef × Value) (is : List Index) :=
      onIndex dv.1.name (fun i => .ofExcept (i.add dv.2 t.rowCount) i) is
    (Outcome.forEach record (t.schema.columns.zip values) u.indexes).within fun is =>
      { u with rowCount := t.rowCount + 1, indexes := is }

def insert (t : Table) (pairs : List (String × Value)) : Outcome Table Row :=
  match t.accept pairs with
  | .error e => .fail e t
  | .ok values => (t.append values).map fun _ => ⟨t.schema.names, values⟩

/-- inserts rows one by one, up to the first that is refused -/
def insertAll (t : Table) (rows : List (List (String × Value))) : Outcome Table Unit :=
  Outcome.forEach (fun pairs u => (u.insert pairs).map fun _ => ()) rows t

def ofRows (name : String) (columns : List ColumnDef) (rows : List (List (String × Value))) :
    Except Error Table :=
  match ofColumns name columns with
  | .error e => .error e
  | .ok t =>
    let o := t.insertAll rows
    o.answer.map fun _ => o.state

end Table

end TableStore
