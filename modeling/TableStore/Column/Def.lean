import TableStore.Error
import TableStore.Coercion

/-!
# Column definitions

* `ColumnSpec`          a column as a statement writes it, with its constraint words;
* `ColumnDef.ofSpec`    the definition that the words mean;
* `ColumnDef.prepare`   a value brought to the type of the column.
-/

namespace TableStore

/-- a column as `CREATE TABLE` writes it -/
structure ColumnSpec where
  name : String
  type : DataType
  constraints : List String
  deriving DecidableEq

/-- one column of a schema -/
structure ColumnDef where
  name : String
  type : DataType
  isPrimaryKey : Bool
  isUnique : Bool
  deriving DecidableEq

namespace ColumnDef

def plain (name : String) (type : DataType) : ColumnDef := ⟨name, type, false, false⟩

/-- the words `PRIMARY KEY` and `UNIQUE`, upper-case, read into the flags of a definition -/
def constrain (d : ColumnDef) : List String → Except Error ColumnDef
  | [] => .ok d
  | "PRIMARY" :: "KEY" :: words => constrain { d with isPrimaryKey := true, isUnique := true } words
  | "PRIMARY" :: _ => .error (.schema (.primaryWithoutKey d.name))
  | "UNIQUE" :: words => constrain { d with isUnique := true } words
  | word :: _ => .error (.schema (.unknownConstraint word d.name))

def ofSpec (s : ColumnSpec) : Except Error ColumnDef :=
  (plain s.name s.type).constrain (s.constraints.map String.toUpper)

/-- the column carries an index -/
def isConstrained (d : ColumnDef) : Bool := d.isPrimaryKey || d.isUnique

/-- the value of the column's type that `v` stands for -/
def coerce (d : ColumnDef) (v : Value) : Except Error Value :=
  match d.type.coerce? v with
  | some w => .ok w
  | none => .error (.type d.name (.notCoercible v d.type))

/-- the value to store for `v`, checked against the type once more -/
def prepare (d : ColumnDef) (v : Value) : Except Error Value :=
  match d.coerce v with
  | .error e => .error e
  | .ok w => if d.type.holds w then .ok w else .error (.type d.name (.notOfType w d.type))

end ColumnDef

end TableStore
