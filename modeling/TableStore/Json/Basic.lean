import TableStore.Value

/-!
# JSON trees

A tree holds what documents are made of: integers, texts, truth values, `null`, lists, and members
in order. `foreign` stands for anything else that JSON can write: a numeral with a fraction or an
exponent, minus zero, and text with an escape that is half of a surrogate pair.

* `Json.ofValue`   a value of a cell as a tree.
-/

namespace TableStore

/-- a JSON tree -/
inductive Json where
  | null
  | bool (b : Bool)
  | int (n : Int)
  | string (s : String)
  | array (items : List Json)
  | object (members : List (String × Json))
  | foreign
  deriving Inhabited

def Json.ofValue : Value → Json
  | .null => null
  | .int n => int n.toInt
  | .text s => string s
  | .bool b => bool b

end TableStore
