import TableStore.Document.Basic
import TableStore.Json.Reader

/-!
# Reading documents

A record is an object, or an array of its fields in order. Fields that a record does not have are
skipped; one that it has may stand only once. A map is an object; of a key that stands twice the
last value counts, though every value has to be of the right shape.

* `Json.fields?`       the fields of a record;
* `Json.entries?`      the entries of a map;
* `Document.ofJson?`   the document that a tree writes.
-/

namespace TableStore

namespace Json

/-- the fields of a record by name; `none` is a field that is not there -/
def fields? (names : List String) : Json → Option (List (Option Json))
  | object ms =>
    if names.any fun n => 1 < ms.countP fun m => m.1 = n then none
    else some (names.map fun n => ms.lookup n)
  | array items =>
    if names.length < items.length then none
    else some ((List.range names.length).map fun i => items[i]?)
  | _ => none

/-- the entries of a map, in the order of the keys -/
def entries? {α : Type} (value? : Json → Option α) : Json → Option (List (String × α))
  | object ms =>
    (ms.mapM fun m => (value? m.2).map fun v => (m.1, v)).map Keyed.ofList
  | _ => none

def items? {α : Type} (item? : Json → Option α) : Json → Option (List α)
  | array items => items.mapM item?
  | _ => none

def text? : Json → Option String
  | string s => some s
  | _ => none

def flag? : Json → Option Bool
  | bool b => some b
  | _ => none

def value? : Json → Option Value
  | null => some .null
  | bool b => some (.bool b)
  | int n => (Numeral.word? n).map .int
  | string s => some (.text s)
  | _ => none

/-- the position of a row, which fits an unsigned word -/
def position? : Json → Option Nat
  | int n => if 0 ≤ n ∧ n < UInt64.size then some n.toNat else none
  | _ => none

/-- the type that a word names -/
def typeOfWord? : String → Option DataType
  | "INT" => some .int
  | "TEXT" => some .text
  | "BOOLEAN" => some .boolean
  | _ => none

/-- a column type: its word, or an object whose only key is the word -/
def type? : Json → Option DataType
  | string word => typeOfWord? word
  | object [(word, null)] => typeOfWord? word
  | _ => none

end Json

open Json

def ColumnDef.ofJson? (j : Json) : Option ColumnDef :=
  match fields? ["name", "type", "primaryKey", "unique"] j with
  | some [some name, some type, some isPrimaryKey, some isUnique] => do
    return ⟨← name.text?, ← type.type?, ← isPrimaryKey.flag?, ← isUnique.flag?⟩
  | _ => none

def IndexDocument.ofJson? (j : Json) : Option IndexDocument :=
  match fields? ["columnName", "isPrimaryKey", "isUnique", "indexMap"] j with
  | some [some column, some isPrimaryKey, some isUnique, some positions] => do
    return ⟨← column.text?, ← isPrimaryKey.flag?, ← isUnique.flag?,
      ← entries? (items? position?) positions⟩
  | _ => none

/-- a table; its indexes may be left out -/
def TableDocument.ofJson? (j : Json) : Option TableDocument :=
  match fields? ["name", "columns", "rows", "indexes"] j with
  | some [some name, some columns, some rows, indexes] => do
    return ⟨← name.text?, ← items? ColumnDef.ofJson? columns, ← items? (entries? value?) rows,
      ← entries? IndexDocument.ofJson? (indexes.getD (.object []))⟩
  | _ => none

def Document.ofJson? (j : Json) : Option Document :=
  match fields? ["name", "tables"] j with
  | some [some name, some tables] => do
    return ⟨← name.text?, ← entries? TableDocument.ofJson? tables⟩
  | _ => none

def Document.ofText? (text : String) : Option Document :=
  (Json.read? text).bind Document.ofJson?

end TableStore
