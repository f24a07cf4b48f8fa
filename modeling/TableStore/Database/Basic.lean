import TableStore.Keyed
import TableStore.Table.Delete
import TableStore.Table.Insert
import TableStore.Table.Update

/-!
# Databases

A database is a name and a list of tables under their names. Listings are in the order of the
names.

* `Database.onTable`   a step on the table of a name, put back whatever its answer.
-/

namespace TableStore

/-- named tables -/
structure Database where
  name : String
  tables : List (String × Table)
  deriving DecidableEq

namespace Database

def empty (name : String) : Database := ⟨name, []⟩

def table? (db : Database) (name : String) : Option Table := db.tables.lookup name

/-- the table of a name, or the failure that there is none -/
def table (db : Database) (name : String) : Except Error Table :=
  match db.table? name with
  | some t => .ok t
  | none => .error (.schema (.tableMissing name))

def has (db : Database) (name : String) : Bool := (db.table? name).isSome

/-- the tables under their names, in the order of the names -/
def sorted (db : Database) : List (String × Table) := Keyed.ofList db.tables

def tableNames (db : Database) : List String := db.sorted.map (·.1)

def columns (db : Database) (name : String) : Except Error (List ColumnDef) :=
  (db.table name).map (·.schema.columns)

/-- another table in the place of the one of that name -/
def replace (db : Database) (name : String) (t : Table) : Database :=
  { db with tables := db.tables.map fun e => if e.1 = name then (name, t) else e }

/-- a step on the table of a name -/
def onTable {α : Type} (db : Database) (name : String) (step : Table → Outcome Table α) :
    Outcome Database α :=
  match db.table name with
  | .error e => .fail e db
  | .ok t => (step t).within (db.replace name)

def add (db : Database) (t : Table) : Except Error Database :=
  if db.has t.name then .error (.schema (.tableExists t.name))
  else .ok { db with tables := db.tables ++ [(t.name, t)] }

def create (db : Database) (name : String) (columns : List ColumnDef) : Except Error Database :=
  if db.has name then .error (.schema (.tableExists name))
  else
    match Table.ofColumns name columns with
    | .error e => .error e
    | .ok t => db.add t

/-- one more table, without rows, from columns as a statement writes them -/
def createOfSpecs (db : Database) (name : String) (columns : List ColumnSpec) :
    Except Error Database :=
  match columns.mapM ColumnDef.ofSpec with
  | .error e => .error e
  | .ok defs => db.create name defs

def createWithRows (db : Database) (name : String) (columns : List ColumnDef)
    (rows : List (List (String × Value))) : Except Error Database :=
  match Table.ofRows name columns rows with
  | .error e => .error e
  | .ok t => db.add t

/-- without the table of a name, which is the answer -/
def drop (db : Database) (name : String) : Outcome Database Table :=
  match db.table name with
  | .error e => .fail e db
  | .ok t => .ok t { db with tables := db.tables.filter (·.1 ≠ name) }

end Database

end TableStore
