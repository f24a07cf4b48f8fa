import TableStore.Document.Decode

/-!
# From documents to databases

Every row of a document is inserted anew, tables and the columns of a row in the order of their
names, so that a loaded database is one that could have been built by hand.

* `Document.toDatabase`   the database, or the first reason against it;
* `Database.ofText`       the database that a text writes.
-/

namespace TableStore

/-- why a text is not the document of a database -/
inductive Corruption where
  | unreadable
  | misnamed (key name : String)
  | table (e : Error)
  | row (pos : Nat) (key : String) (e : Error)
  deriving DecidableEq

def Corruption.message : Corruption → String
  | unreadable => "invalid document"
  | misnamed key name =>
    s!"table {Text.quoted key} is stored under the name {Text.quoted name}"
  | table e => e.message
  | row pos key e => s!"row {pos} of table {Text.quoted key}: {e.message}"

/-- inserts the rows from `pos` on into the table stored under `key` -/
def TableDocument.fill (key : String) (pos : Nat) (t : Table) :
    List (List (String × Value)) → Except Corruption Table
  | [] => .ok t
  | r :: rs =>
    let o := t.insert r
    match o.answer with
    | .error e => .error (.row pos key e)
    | .ok _ => fill key (pos + 1) o.state rs

/-- the table stored under `key` -/
def TableDocument.toTable (key : String) (d : TableDocument) : Except Corruption Table :=
  if key ≠ d.name then .error (.misnamed key d.name)
  else
    match Table.ofColumns d.name d.columns with
    | .error e => .error (.table e)
    | .ok t => fill key 0 t d.rows

/-- adds the tables stored under their keys to a database -/
def Document.addTables (db : Database) :
    List (String × TableDocument) → Except Corruption Database
  | [] => .ok db
  | (key, d) :: rest =>
    match d.toTable key with
    | .error c => .error c
    | .ok t =>
      match db.add t with
      | .error e => .error (.table e)
      | .ok db => addTables db rest

def Document.toDatabase (d : Document) : Except Corruption Database :=
  addTables (.empty d.name) d.tables

def Database.ofText (text : String) : Except Corruption Database :=
  match Document.ofText? text with
  | none => .error .unreadable
  | some d => d.toDatabase

end TableStore
