import TableStore.Query.Join
import TableStore.Sql.Grammar

/-!
# Running statements

* `Database.run`       one statement;
* `Database.execute`   the statement that a text writes;
* `Database.query`     the same for queries alone, which change nothing;
* `Answer.display`     the text of an answer.

An update or a deletion without a condition is refused before anything else is looked at.
-/

namespace TableStore

open Sql

/-- what a statement answers -/
inductive Answer where
  | created (table : String)
  | inserted (row : Row)
  | rows (result : QueryResult)
  | affected (n : Nat)
  deriving DecidableEq

/-- fields with bars between them -/
def barred (fields : List String) : String := " | ".intercalate fields

def Answer.display : Answer → String
  | created table => s!"table {table} created"
  | inserted _ => "1 row inserted"
  | affected n => s!"{n} row(s) affected"
  | rows r =>
    "\n".intercalate
      (barred r.labels :: r.rows.map (fun values => barred (values.map Value.plain))
        ++ [s!"({r.length} row(s))"])

example : (Answer.rows ⟨["id", "name"], [[.int 1, .text "Ann"], [.int 2, .null]]⟩).display
    = "id | name\n1 | Ann\n2 | NULL\n(2 row(s))" := by decide +kernel
example : (Answer.rows ⟨["id"], []⟩).display = "id\n(0 row(s))" := by decide +kernel

namespace Database

def select (db : Database) (q : Select) : Except Error QueryResult :=
  match q.join with
  | some j => Join.run db q j
  | none =>
    match db.table q.table with
    | .error e => .error e
    | .ok t =>
      match t.find q.condition with
      | .error e => .error e
      | .ok rows => t.project q.projection rows

/-- stores a row given by its values, in schema order unless columns are named -/
def insertValues (db : Database) (table : String) (columns : Option (List String))
    (values : List Value) : Outcome Database Row :=
  db.onTable table fun t =>
    let names := columns.getD t.schema.names
    if names.length = values.length then t.insert (names.zip values)
    else .fail (.schema (.valueCount table names.length values.length)) t

def run (db : Database) : Statement → Outcome Database Answer
  | .createTable table columns =>
    (Outcome.ofExcept (db.createOfSpecs table columns) db).map fun _ => .created table
  | .insert table columns values => (db.insertValues table columns values).map .inserted
  | .select q => ⟨(db.select q).map .rows, db⟩
  | .update _ _ none => .fail (.safety "UPDATE") db
  | .update table pairs (some c) =>
    (db.onTable table fun t => t.update pairs (some c)).map .affected
  | .delete _ none => .fail (.safety "DELETE") db
  | .delete table (some c) => (db.onTable table fun t => t.delete (some c)).map .affected

def execute (db : Database) (text : String) : Outcome Database Answer :=
  match Statement.ofText text with
  | .error e => .fail e db
  | .ok s => db.run s

/-- the answer to the query that a text writes; any other statement is refused -/
def query (db : Database) (text : String) : Except Error QueryResult :=
  match Statement.ofText text with
  | .error e => .error e
  | .ok (.select q) => db.select q
  | .ok s => .error (.parse (.token (.keyword .select)) (.statement s.title) 0)

end Database

end TableStore
