import TableStore.Sql.Lexer
import TableStore.Sql.Parser
import TableStore.Sql.Statement

/-!
# The grammar of statements

The first keyword chooses the kind of statement.

* `Grammar.statement`    one statement;
* `Statement.ofText`     the statement that a text writes.
-/

namespace TableStore.Sql

namespace Grammar

open TableStore.Sql.Parser

/-! ## names, types, literals -/

def identifier : Parser String :=
  take .identifier fun
    | .identifier name => some name
    | _ => none

/-- the type of a column; a name in its place is an unknown type -/
def columnType (column : String) : Parser DataType := do
  match ← peek with
  | some (.identifier type) => fail (.schema (.unknownType type column))
  | _ =>
    take .columnType fun
      | .keyword .int => some .int
      | .keyword .text => some .text
      | .keyword .boolean => some .boolean
      | _ => none

def constraintWord? : Token → Option String
  | .keyword .primary => some "PRIMARY"
  | .keyword .key => some "KEY"
  | .keyword .unique => some "UNIQUE"
  | _ => none

/-- a name, a type, and any constraint words -/
def columnSpec : Parser ColumnSpec := do
  let name ← identifier
  let type ← columnType name
  let constraints ← many constraintWord?
  return { name, type, constraints }

/-- a column, `column` or `table.column` -/
def columnRef : Parser ColumnRef := do
  let first ← identifier
  if ← optional (.symbol .dot) then
    let column ← identifier
    return ⟨some first, column⟩
  else
    return ⟨none, first⟩

def comparison : Parser Comparison :=
  take .comparison fun
    | .symbol .equal => some .equal
    | .symbol .doubleEqual => some .equal
    | .symbol .notEqual => some .notEqual
    | .symbol .greater => some .greater
    | .symbol .greaterEqual => some .greaterEqual
    | .symbol .less => some .less
    | .symbol .lessEqual => some .lessEqual
    | _ => none

def literal : Parser Value :=
  take .literal fun
    | .number n => some (.int n)
    | .string s => some (.text s)
    | .keyword .null => some .null
    | _ => none

/-! ## clauses -/

def condition : Parser Condition := do
  let column ← columnRef
  let op ← comparison
  let value ← literal
  return { column, op, value }

/-- the clause `WHERE condition`, or nothing -/
def whereClause : Parser (Option Condition) := do
  if ← optional (.keyword .where) then
    return some (← condition)
  else
    return none

/-- the equals sign of a join, written `=` or `==` -/
def joinEqual : Parser Unit :=
  take (.token (.symbol .equal)) fun
    | .symbol .equal => some ()
    | .symbol .doubleEqual => some ()
    | _ => none

/-- the clause `JOIN table ON column = column`, or nothing -/
def joinClause : Parser (Option JoinClause) := do
  if ← optional (.keyword .join) then
    let table ← identifier
    keyword .on
    let left ← columnRef
    joinEqual
    let right ← columnRef
    return some { table, left, right }
  else
    return none

/-- a star, or a list of columns -/
def projection : Parser Projection := do
  if ← optional (.symbol .star) then
    return .all
  else
    return .columns (← commaSeparated columnRef)

/-- an assignment `column = literal` -/
def assignment : Parser (String × Value) := do
  let column ← identifier
  symbol .equal
  let value ← literal
  return (column, value)

/-- a list of names in parentheses, or nothing -/
def columnNames : Parser (Option (List String)) := do
  if ← optional (.symbol .leftParen) then
    let names ← commaSeparated identifier
    symbol .rightParen
    return some names
  else
    return none

/-! ## statements -/

/-- the statement `CREATE TABLE table (columns)` -/
def createTable : Parser Statement := do
  keyword .create
  keyword .table
  let table ← identifier
  symbol .leftParen
  let columns ← commaSeparated columnSpec
  symbol .rightParen
  return .createTable table columns

/-- the statement `SELECT columns FROM table`, with its clauses -/
def select : Parser Statement := do
  keyword .select
  let projection ← projection
  keyword .from
  let table ← identifier
  let join ← joinClause
  let condition ← whereClause
  return .select { projection, table, join, condition }

/-- the statement `INSERT INTO table VALUES (values)`, with as many values as it names columns -/
def insert : Parser Statement := do
  keyword .insert
  keyword .into
  let table ← identifier
  let columns ← columnNames
  keyword .values
  let start ← offset
  symbol .leftParen
  let values ← commaSeparated literal
  symbol .rightParen
  match columns with
  | none => return .insert table none values
  | some names =>
    if names.length = values.length then
      return .insert table (some names) values
    else
      fail (.parse (.values names.length) (.values values.length) start)

/-- the statement `UPDATE table SET assignments`, with its clause -/
def update : Parser Statement := do
  keyword .update
  let table ← identifier
  keyword .set
  let assignments ← commaSeparated assignment
  let condition ← whereClause
  return .update table assignments condition

/-- the statement `DELETE FROM table`, with its clause -/
def delete : Parser Statement := do
  keyword .delete
  keyword .from
  let table ← identifier
  let condition ← whereClause
  return .delete table condition

def statement : Parser Statement := do
  match ← peek with
  | some (.keyword .create) => createTable
  | some (.keyword .select) => select
  | some (.keyword .insert) => insert
  | some (.keyword .update) => update
  | some (.keyword .delete) => delete
  | _ => refuse .statement

end Grammar

def Statement.ofText (text : String) : Except Error Statement :=
  match lex text with
  | .error e => .error e
  | .ok tokens => Grammar.statement.parse tokens

end TableStore.Sql
