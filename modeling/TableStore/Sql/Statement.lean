import TableStore.Column.Def
import TableStore.Condition

/-!
# Statements

* `Statement`        what a text of the query language asks for;
* `Statement.title`  the name of its kind.
-/

namespace TableStore.Sql

inductive Projection where
  | all
  | columns (refs : List ColumnRef)
  deriving DecidableEq

/-- the clause `JOIN table ON left = right` -/
structure JoinClause where
  table : String
  left : ColumnRef
  right : ColumnRef
  deriving DecidableEq

structure Select where
  projection : Projection
  table : String
  join : Option JoinClause
  condition : Option Condition
  deriving DecidableEq

inductive Statement where
  | createTable (table : String) (columns : List ColumnSpec)
  | insert (table : String) (columns : Option (List String)) (values : List Value)
  | select (query : Select)
  | update (table : String) (assignments : List (String × Value)) (condition : Option Condition)
  | delete (table : String) (condition : Option Condition)
  deriving DecidableEq

/-- the name of the kind of a statement -/
def Statement.title : Statement → String
  | createTable .. => "CREATE TABLE"
  | insert .. => "INSERT"
  | select .. => "SELECT"
  | update .. => "UPDATE"
  | delete .. => "DELETE"

end TableStore.Sql
