import TableStore.Value

/-!
# Tokens of a statement

* `Keyword`, `Symbol`   the fixed lexemes, each with its spelling;
* `Token`               a keyword, a symbol, a name, or a literal;
* `Token.describe`      how messages name a token.
-/

namespace TableStore.Sql

inductive Keyword where
  | select | «from» | «where» | insert | into | values | update | set | delete | create | table
  | primary | key | unique | join | on | and | or | not | null | int | text | boolean
  deriving DecidableEq, Repr

namespace Keyword

def spelling : Keyword → String
  | select => "SELECT"
  | «from» => "FROM"
  | «where» => "WHERE"
  | insert => "INSERT"
  | into => "INTO"
  | values => "VALUES"
  | update => "UPDATE"
  | set => "SET"
  | delete => "DELETE"
  | create => "CREATE"
  | table => "TABLE"
  | primary => "PRIMARY"
  | key => "KEY"
  | unique => "UNIQUE"
  | join => "JOIN"
  | on => "ON"
  | and => "AND"
  | or => "OR"
  | not => "NOT"
  | null => "NULL"
  | int => "INT"
  | text => "TEXT"
  | boolean => "BOOLEAN"

def all : List Keyword := [
  select, «from», «where», insert, into, values, update, set, delete, create, table, primary, key,
  unique, join, on, and, or, not, null, int, text, boolean]

/-- the keyword that a word spells, in any letter case -/
def ofWord? (word : List Char) : Option Keyword :=
  all.find? fun k => k.spelling.toList = word.map Char.toUpper

end Keyword

inductive Symbol where
  | equal | doubleEqual | notEqual | greater | greaterEqual | less | lessEqual | bang
  | leftParen | rightParen | comma | semicolon | star | dot
  deriving DecidableEq, Repr

def Symbol.spelling : Symbol → String
  | equal => "="
  | doubleEqual => "=="
  | notEqual => "!="
  | greater => ">"
  | greaterEqual => ">="
  | less => "<"
  | lessEqual => "<="
  | bang => "!"
  | leftParen => "("
  | rightParen => ")"
  | comma => ","
  | semicolon => ";"
  | star => "*"
  | dot => "."

inductive Token where
  | keyword (k : Keyword)
  | symbol (s : Symbol)
  | identifier (name : String)
  | number (n : Int64)
  | string (s : String)
  deriving DecidableEq

/-- how messages name a token -/
def Token.describe : Token → String
  | keyword k => k.spelling
  | symbol s => s!"'{s.spelling}'"
  | identifier name => s!"identifier '{name}'"
  | number n => s!"number {(Value.int n).plain}"
  | string s => s!"string '{s}'"

/-- a token and the byte where it starts -/
structure Located where
  token : Token
  offset : Nat
  deriving DecidableEq

/-- the tokens of a text, and its length in bytes -/
structure TokenList where
  tokens : List Located
  stop : Nat
  deriving DecidableEq

end TableStore.Sql
