import TableStore.Numeral
import TableStore.Text.Quoted

/-!
# Values and their types

A cell holds an integer of 64 bits, a text, a truth value, or nothing at all.

* `Value.plain`      the plain text of a value, as results print it;
* `Value.compare?`   the order inside one type: numbers by size, texts by code point, false before
  true. Nothing compares with `null` or across types.
-/

namespace TableStore

inductive DataType where
  | int
  | text
  | boolean
  deriving DecidableEq, Repr, Inhabited

/-- the word for a type in statements and documents -/
def DataType.keyword : DataType → String
  | .int => "INT"
  | .text => "TEXT"
  | .boolean => "BOOLEAN"

inductive Value where
  | null
  | int (n : Int64)
  | text (s : String)
  | bool (b : Bool)
  deriving DecidableEq, Inhabited

namespace Value

def isNull : Value → Bool
  | null => true
  | _ => false

/-- the type of a value; `null` has none -/
def dataType? : Value → Option DataType
  | null => none
  | int _ => some .int
  | text _ => some .text
  | bool _ => some .boolean

def int? : Value → Option Int64
  | int n => some n
  | _ => none

def text? : Value → Option String
  | text s => some s
  | _ => none

def bool? : Value → Option Bool
  | bool b => some b
  | _ => none

/-- the plain text of a value -/
def plain : Value → String
  | null => "NULL"
  | int n => String.ofList (Numeral.ofInt n.toInt)
  | text s => s
  | bool true => "true"
  | bool false => "false"

/-- the text of a value with its kind, as internal errors name it -/
def tagged : Value → String
  | null => "Null"
  | int n => "Int(" ++ plain (int n) ++ ")"
  | text s => "Text(" ++ Text.quoted s ++ ")"
  | bool b => "Bool(" ++ plain (bool b) ++ ")"

/-- the order of two values of one type -/
def compare? : Value → Value → Option Ordering
  | int a, int b => some (compare a b)
  | text a, text b => some (compare a b)
  | bool a, bool b => some (compare a b)
  | _, _ => none

@[simp] theorem isNull_iff {v : Value} : v.isNull = true ↔ v = null := by
  cases v <;> simp [isNull]

end Value

end TableStore
