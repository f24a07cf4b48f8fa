import TableStore.Column.Def

/-!
# Schemas

* `Schema.ofColumns`   at least one column, names all different, at most one primary key, and that
  one unique; the first fault in this order of checking is reported.
-/

namespace TableStore

structure Schema where
  columns : List ColumnDef
  deriving DecidableEq

namespace Schema

/-- the first column whose name came before, or whose primary key is not unique -/
def columnFault? (seen : List String) : List ColumnDef → Option SchemaFault
  | [] => none
  | d :: ds =>
    if d.name ∈ seen then some (.duplicateColumn d.name)
    else if d.isPrimaryKey && !d.isUnique then some (.primaryKeyNotUnique d.name)
    else columnFault? (d.name :: seen) ds

def ofColumns (columns : List ColumnDef) : Except Error Schema :=
  if columns = [] then .error (.schema .noColumns)
  else
    match columnFault? [] columns with
    | some fault => .error (.schema fault)
    | none =>
      let keys := columns.countP (·.isPrimaryKey)
      if keys > 1 then .error (.schema (.manyPrimaryKeys keys)) else .ok ⟨columns⟩

def position? (s : Schema) (name : String) : Option Nat :=
  s.columns.findIdx? (·.name = name)

def column? (s : Schema) (name : String) : Option ColumnDef :=
  s.columns.find? (·.name = name)

/-- the primary key, if there is one -/
def primaryKey? (s : Schema) : Option ColumnDef :=
  s.columns.find? (·.isPrimaryKey)

def names (s : Schema) : List String := s.columns.map (·.name)

def length (s : Schema) : Nat := s.columns.length

end Schema

end TableStore
