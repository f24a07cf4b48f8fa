import Mathlib.Data.List.Forall2
import TableStore.Sql.Statement
import TableStore.Sql.Token

/-!
# The phrases of the query language

Each kind of phrase is a relation between what is meant and the tokens that write it, with one
constructor for each way of writing it. Nothing is said here of how tokens are read.

* `Phrase.Separated`      one or more phrases with commas between them;
* `Phrase.Followed`       phrases with a comma after each;
* `Phrase.Heading`, `Phrase.TypeAwaited`   the beginnings of an insertion and of `CREATE TABLE`;
* `Phrase.Command`        a statement;
* `Sentence`              a statement, perhaps with a semicolon after it;
* `Statement.Balanced`    a statement that gives as many values as it names columns.
-/

namespace TableStore.Sql

namespace Phrase

/-- one or more phrases with commas between them -/
inductive Separated {α : Type} (item : α → List Token → Prop) : List α → List Token → Prop where
  | one {a : α} {ts : List Token} (h : item a ts) : Separated item [a] ts
  | more {a : α} {as : List α} {ts us : List Token} (h : item a ts) (rest : Separated item as us) :
    Separated item (a :: as) (ts ++ .symbol .comma :: us)

/-- phrases with a comma after each of them -/
inductive Followed {α : Type} (item : α → List Token → Prop) : List α → List Token → Prop where
  | nil : Followed item [] []
  | cons {a : α} {as : List α} {ts us : List Token} (h : item a ts) (rest : Followed item as us) :
    Followed item (a :: as) (ts ++ .symbol .comma :: us)

/-! ## single tokens -/

inductive Name : String → Token → Prop where
  | identifier (name : String) : Name name (.identifier name)

inductive TypeName : DataType → Token → Prop where
  | int : TypeName .int (.keyword .int)
  | text : TypeName .text (.keyword .text)
  | boolean : TypeName .boolean (.keyword .boolean)

inductive Constraint : String → Token → Prop where
  | primary : Constraint "PRIMARY" (.keyword .primary)
  | key : Constraint "KEY" (.keyword .key)
  | unique : Constraint "UNIQUE" (.keyword .unique)

inductive Operator : Comparison → Token → Prop where
  | equal : Operator .equal (.symbol .equal)
  | doubleEqual : Operator .equal (.symbol .doubleEqual)
  | notEqual : Operator .notEqual (.symbol .notEqual)
  | greater : Operator .greater (.symbol .greater)
  | greaterEqual : Operator .greaterEqual (.symbol .greaterEqual)
  | less : Operator .less (.symbol .less)
  | lessEqual : Operator .lessEqual (.symbol .lessEqual)

inductive Literal : Value → Token → Prop where
  | number (n : Int64) : Literal (.int n) (.number n)
  | string (s : String) : Literal (.text s) (.string s)
  | null : Literal .null (.keyword .null)

/-- a phrase of one token -/
inductive Single {α : Type} (item : α → Token → Prop) : α → List Token → Prop where
  | single {a : α} {t : Token} (h : item a t) : Single item a [t]

/-! ## parts of statements -/

/-- a column with its type and its constraints -/
inductive Column : ColumnSpec → List Token → Prop where
  | column (name : String) {type : DataType} {t : Token} {words : List String} {ts : List Token}
    (htype : TypeName type t) (hwords : List.Forall₂ Constraint words ts) :
    Column ⟨name, type, words⟩ (.identifier name :: t :: ts)

/-- `column` or `table.column` -/
inductive Reference : ColumnRef → List Token → Prop where
  | plain (column : String) : Reference ⟨none, column⟩ [.identifier column]
  | qualified (table column : String) :
    Reference ⟨some table, column⟩ [.identifier table, .symbol .dot, .identifier column]

/-- a star, or columns -/
inductive Projected : Projection → List Token → Prop where
  | all : Projected .all [.symbol .star]
  | columns {refs : List ColumnRef} {ts : List Token} (h : Separated Reference refs ts) :
    Projected (.columns refs) ts

/-- `JOIN table ON column = column`, or nothing -/
inductive Joined : Option JoinClause → List Token → Prop where
  | none : Joined none []
  | join (table : String) {left right : ColumnRef} {ls rs : List Token} {t : Token}
    (hl : Reference left ls) (ht : Operator .equal t) (hr : Reference right rs) :
    Joined (some ⟨table, left, right⟩)
      (.keyword .join :: .identifier table :: .keyword .on :: ls ++ t :: rs)

/-- `WHERE column operator literal`, or nothing -/
inductive Where : Option Condition → List Token → Prop where
  | none : Where none []
  | condition {column : ColumnRef} {op : Comparison} {value : Value} {ts : List Token}
    {t u : Token} (hcolumn : Reference column ts) (hop : Operator op t) (hvalue : Literal value u) :
    Where (some ⟨column, op, value⟩) (.keyword .where :: ts ++ [t, u])

/-- `column = literal` -/
inductive Assigned : String × Value → List Token → Prop where
  | assign (column : String) {value : Value} {t : Token} (h : Literal value t) :
    Assigned (column, value) [.identifier column, .symbol .equal, t]

/-- names in parentheses, or nothing -/
inductive Named : Option (List String) → List Token → Prop where
  | none : Named none []
  | names {names : List String} {ts : List Token} (h : Separated (Single Name) names ts) :
    Named (some names) (.symbol .leftParen :: ts ++ [.symbol .rightParen])

/-- the beginning of an insertion, up to the keyword `VALUES` -/
inductive Heading : String × Option (List String) → List Token → Prop where
  | insert (table : String) {columns : Option (List String)} {ns : List Token}
    (h : Named columns ns) :
    Heading (table, columns)
      (.keyword .insert :: .keyword .into :: .identifier table :: ns ++ [.keyword .values])

/-- values in parentheses -/
inductive Tuple : List Value → List Token → Prop where
  | values {values : List Value} {vs : List Token} (h : Separated (Single Literal) values vs) :
    Tuple values (.symbol .leftParen :: vs ++ [.symbol .rightParen])

/-- the beginning of `CREATE TABLE` up to the name of a column, whose type has to come next -/
inductive TypeAwaited (column : String) : List Token → Prop where
  | column (table : String) {specs : List ColumnSpec} {ts : List Token}
    (h : Followed Column specs ts) :
    TypeAwaited column
      (.keyword .create :: .keyword .table :: .identifier table :: .symbol .leftParen :: ts
        ++ [.identifier column])

/-! ## statements -/

inductive Command : Statement → List Token → Prop where
  | createTable (table : String) {columns : List ColumnSpec} {ts : List Token}
    (hcolumns : Separated Column columns ts) :
    Command (.createTable table columns)
      (.keyword .create :: .keyword .table :: .identifier table :: .symbol .leftParen :: ts
        ++ [.symbol .rightParen])
  | select {projection : Projection} (table : String) {join : Option JoinClause}
    {condition : Option Condition} {ps js ws : List Token} (hprojection : Projected projection ps)
    (hjoin : Joined join js) (hcondition : Where condition ws) :
    Command (.select ⟨projection, table, join, condition⟩)
      (.keyword .select :: ps ++ .keyword .from :: .identifier table :: (js ++ ws))
  | insert (table : String) {columns : Option (List String)} {values : List Value}
    {ns vs : List Token} (hcolumns : Named columns ns)
    (hvalues : Separated (Single Literal) values vs) :
    Command (.insert table columns values)
      (.keyword .insert :: .keyword .into :: .identifier table :: ns
        ++ .keyword .values :: .symbol .leftParen :: vs ++ [.symbol .rightParen])
  | update (table : String) {assignments : List (String × Value)} {condition : Option Condition}
    {as ws : List Token} (hassignments : Separated Assigned assignments as)
    (hcondition : Where condition ws) :
    Command (.update table assignments condition)
      (.keyword .update :: .identifier table :: .keyword .set :: as ++ ws)
  | delete (table : String) {condition : Option Condition} {ws : List Token}
    (hcondition : Where condition ws) :
    Command (.delete table condition) (.keyword .delete :: .keyword .from :: .identifier table :: ws)

end Phrase

/-- a statement, perhaps with a semicolon after it -/
inductive Sentence (s : Statement) : List Token → Prop where
  | bare {ts : List Token} (h : Phrase.Command s ts) : Sentence s ts
  | closed {ts : List Token} (h : Phrase.Command s ts) : Sentence s (ts ++ [.symbol .semicolon])

/-- there are as many values as columns are named -/
def Statement.Balanced : Statement → Prop
  | .insert _ (some names) values => names.length = values.length
  | _ => True

end TableStore.Sql
