import TableStore.ColumnRef
import TableStore.Sql.Token

/-!
# What can go wrong

One constructor of `Error` per class of failure, with its cause; the wording is in `message`.

* `Error.message`   the text shown to the user;
* `Error.kind`      the class of a failure, whatever its cause and its wording.
-/

namespace TableStore

/-- why a text is not a list of tokens -/
inductive LexicalFault where
  | unexpected (c : Char)
  | integerTooLarge (digits : String)
  | unterminated
  deriving DecidableEq

def LexicalFault.message : LexicalFault → String
  | unexpected c => s!"unexpected character {Text.quotedChar c}"
  | integerTooLarge ds =>
    s!"invalid integer literal {ds}: number too large to fit in target type"
  | unterminated => "unterminated string literal"

/-- what a grammar rule was waiting for -/
inductive Expected where
  | statement
  | token (t : Sql.Token)
  | identifier
  | columnType
  | comparison
  | literal
  | endOfStatement
  | values (n : Nat)
  deriving DecidableEq

def Expected.message : Expected → String
  | statement => "CREATE, SELECT, INSERT, UPDATE or DELETE"
  | token t => t.describe
  | identifier => "identifier"
  | columnType => "column type"
  | comparison => "comparison operator"
  | literal => "literal"
  | endOfStatement => "end of statement"
  | values n => s!"{n} values"

/-- what stood there instead -/
inductive Found where
  | token (t : Sql.Token)
  | stop
  | values (n : Nat)
  | statement (name : String)
  deriving DecidableEq

def Found.message : Found → String
  | token t => t.describe
  | stop => "end of input"
  | values n => s!"{n} values"
  | statement name => name

/-- why a table or a set of columns cannot be had -/
inductive SchemaFault where
  | unknownType (type column : String)
  | primaryWithoutKey (column : String)
  | unknownConstraint (word column : String)
  | noColumns
  | duplicateColumn (column : String)
  | primaryKeyNotUnique (column : String)
  | manyPrimaryKeys (n : Nat)
  | tableExists (table : String)
  | tableMissing (table : String)
  | valueCount (table : String) (columns values : Nat)
  | selfJoin (table : String)
  deriving DecidableEq

def SchemaFault.message : SchemaFault → String
  | unknownType type column =>
    s!"invalid type {Text.quoted type} for column {Text.quoted column}"
  | primaryWithoutKey column => s!"PRIMARY must be followed by KEY on column {Text.quoted column}"
  | unknownConstraint word column =>
    s!"unexpected constraint {word} on column {Text.quoted column}"
  | noColumns => "a table needs at least one column"
  | duplicateColumn column => s!"duplicate column name {Text.quoted column}"
  | primaryKeyNotUnique column => s!"primary key column {Text.quoted column} must be unique"
  | manyPrimaryKeys n => s!"a table can have at most one primary key, found {n}"
  | tableExists table => s!"table {Text.quoted table} already exists"
  | tableMissing table => s!"table {Text.quoted table} does not exist"
  | valueCount table columns values =>
    s!"table {Text.quoted table} expects {columns} value(s), got {values}"
  | selfJoin table => s!"table {Text.quoted table} cannot be joined with itself"

/-- why a row may not stand in a table -/
inductive ConstraintFault where
  | primaryKeyMissing
  | duplicate (isPrimaryKey : Bool) (value : Value)
  deriving DecidableEq

def ConstraintFault.message : ConstraintFault → String
  | primaryKeyMissing => "primary key requires a value"
  | duplicate isPrimaryKey value =>
    let kind := if isPrimaryKey then "primary key" else "unique"
    let shown := match value with
      | .text s => s!"'{s}'"
      | v => v.plain
    s!"duplicate {kind} value {shown}"

/-- why a value does not fit a type -/
inductive TypeFault where
  | notCoercible (value : Value) (type : DataType)
  | notOfType (value : Value) (type : DataType)
  deriving DecidableEq

def TypeFault.message : TypeFault → String
  | notCoercible (.text s) .int => s!"cannot coerce {Text.quoted s} to INT"
  | notCoercible v t => s!"cannot coerce {v.plain} to {t.keyword}"
  | notOfType v t => s!"value {v.plain} is not a valid {t.keyword}"

/-- why a column name means nothing here -/
inductive ColumnFault where
  | unknown (column : String)
  | repeated (column : String)
  | unknownIn (column table : String)
  | assignedTwice (column : String)
  | otherTable (ref : ColumnRef) (table : String)
  | unresolved (ref : ColumnRef) (table : String)
  | unrelated (left right : ColumnRef) (leftTable rightTable : String)
  | unknownInJoin (ref : ColumnRef)
  deriving DecidableEq

def ColumnFault.message : ColumnFault → String
  | unknown column => s!"unknown column {Text.quoted column}"
  | repeated column => s!"column {Text.quoted column} given more than once"
  | unknownIn column table => s!"unknown column {Text.quoted column} in table {Text.quoted table}"
  | assignedTwice column => s!"column {Text.quoted column} assigned more than once"
  | otherTable ref table => s!"column {ref.label} does not belong to table {Text.quoted table}"
  | unresolved ref table => s!"unknown column {ref.label} in table {Text.quoted table}"
  | unrelated l r lt rt =>
    s!"join condition {l.label} = {r.label} does not relate {Text.quoted lt} and {Text.quoted rt}"
  | unknownInJoin ref => s!"unknown column {ref.label} in join"

/-- a step that no table in order can reach -/
inductive InternalFault where
  | pushed (value : Value) (type : DataType)
  | stored (value : Value) (type : DataType)
  | rowOutOfBounds (pos : Nat)
  | columnOutOfBounds (pos : Nat)
  | strayIndex (column : String)
  deriving DecidableEq

def InternalFault.message : InternalFault → String
  | pushed v t => s!"value {v.tagged} pushed into a {t.keyword} column"
  | stored v t => s!"value {v.tagged} stored into a {t.keyword} column"
  | rowOutOfBounds pos => s!"row index {pos} out of bounds"
  | columnOutOfBounds pos => s!"column index {pos} out of bounds"
  | strayIndex column => s!"index on missing column {Text.quoted column}"

/-- why a statement or a call is refused -/
inductive Error where
  | lexical (fault : LexicalFault) (offset : Nat)
  | parse (expected : Expected) (found : Found) (offset : Nat)
  | schema (fault : SchemaFault)
  | constraint (column : String) (fault : ConstraintFault)
  | type (column : String) (fault : TypeFault)
  | column (fault : ColumnFault)
  | safety (statement : String)
  | internal (fault : InternalFault)
  deriving DecidableEq

/-- the classes of failures -/
inductive ErrorKind where
  | lexical | parse | schema | constraint | type | column | safety | internal
  deriving DecidableEq, Repr

/-- the class of a failure, whatever its cause -/
def Error.kind : Error → ErrorKind
  | lexical .. => .lexical
  | parse .. => .parse
  | schema _ => .schema
  | constraint .. => .constraint
  | type .. => .type
  | column _ => .column
  | safety _ => .safety
  | internal _ => .internal

/-- the text shown to the user -/
def Error.message : Error → String
  | lexical fault offset => s!"lexical error at offset {offset}: {fault.message}"
  | parse expected found offset =>
    s!"parse error at offset {offset}: expected {expected.message}, found {found.message}"
  | schema fault => s!"schema error: {fault.message}"
  | constraint c fault => s!"constraint violation on column '{c}': {fault.message}"
  | type c fault => s!"type error on column '{c}': {fault.message}"
  | column fault => s!"column error: {fault.message}"
  | safety statement => s!"refusing to run {statement} without a WHERE clause"
  | internal fault => s!"internal: {fault.message}"

end TableStore
