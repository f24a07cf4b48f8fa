import TableStore.Json.Rows

/-!
# Documents

A document holds a whole database. Rows are written out in column order, tables and indexes in the
order of their names. The entries of an index are for readers of the document only: a database is
built from the rows.

* `Document.ofDatabase`   the document of a database;
* `Document.toJson`       the tree of a document;
* `Database.text`         the text that is kept in a file.
-/

namespace TableStore

/-- an index: positions under the compact text of each value -/
structure IndexDocument where
  column : String
  isPrimaryKey : Bool
  isUnique : Bool
  positions : List (String × List Nat)
  deriving DecidableEq

/-- a table: its columns, and its rows as named values -/
structure TableDocument where
  name : String
  columns : List ColumnDef
  rows : List (List (String × Value))
  indexes : List (String × IndexDocument)
  deriving DecidableEq

/-- a database: its tables under their names -/
structure Document where
  name : String
  tables : List (String × TableDocument)
  deriving DecidableEq

/-! ## the document of a database -/

/-- the entries of an index under the compact text of their values, in the order of the texts -/
def Index.entries (i : Index) : List (String × Value × List Nat) :=
  Keyed.ofList (i.buckets.map fun b => ((Json.ofValue b.1).compact, b))

def IndexDocument.ofIndex (i : Index) : IndexDocument where
  column := i.column
  isPrimaryKey := i.isPrimaryKey
  isUnique := i.isUnique
  positions := i.entries.map fun e => (e.1, e.2.2)

/-- the indexes of a table under the names of their columns, in the order of the names -/
def Table.sortedIndexes (t : Table) : List (String × Index) :=
  Keyed.ofList (t.indexes.map fun i => (i.column, i))

def TableDocument.ofTable (t : Table) : TableDocument where
  name := t.name
  columns := t.schema.columns
  rows := t.rows.map Row.pairs
  indexes := t.sortedIndexes.map fun e => (e.1, .ofIndex e.2)

def Document.ofDatabase (db : Database) : Document where
  name := db.name
  tables := db.sorted.map fun e => (e.1, .ofTable e.2)

/-! ## the tree of a document -/

def ColumnDef.toJson (d : ColumnDef) : Json :=
  .object [
    ("name", .string d.name),
    ("type", .string d.type.keyword),
    ("primaryKey", .bool d.isPrimaryKey),
    ("unique", .bool d.isUnique)]

def Json.ofPositions (positions : List Nat) : Json :=
  .array (positions.map fun n => .int (n : Nat))

def IndexDocument.toJson (d : IndexDocument) : Json :=
  .object [
    ("columnName", .string d.column),
    ("isPrimaryKey", .bool d.isPrimaryKey),
    ("isUnique", .bool d.isUnique),
    ("indexMap", .object (d.positions.map fun e => (e.1, .ofPositions e.2)))]

def TableDocument.toJson (d : TableDocument) : Json :=
  .object [
    ("name", .string d.name),
    ("columns", .array (d.columns.map ColumnDef.toJson)),
    ("rows", .array (d.rows.map Json.ofPairs)),
    ("indexes", .object (d.indexes.map fun e => (e.1, e.2.toJson)))]

def Document.toJson (d : Document) : Json :=
  .object [
    ("name", .string d.name),
    ("tables", .object (d.tables.map fun e => (e.1, e.2.toJson)))]

/-- the text that is kept in a file -/
def Database.text (db : Database) : String := (Document.ofDatabase db).toJson.pretty

end TableStore
