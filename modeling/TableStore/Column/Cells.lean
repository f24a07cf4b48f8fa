import TableStore.Outcome
import TableStore.Coercion

/-!
# The cells of one column

A column keeps its payloads in a list of one type, and beside it one bit per row that says whether
the cell is empty. The payload under such a bit means nothing: a placeholder, or what was there
before.

* `Column.push`, `set`, `remove`   refuse a value of another type and a row past the end;
* `Column.get?`                    the value of a row;
* `Column.values`                  all of them.
-/

namespace TableStore

/-- payloads of one type, one per row -/
inductive Cells where
  | ints (xs : List Int64)
  | texts (xs : List String)
  | bools (xs : List Bool)
  deriving DecidableEq

namespace Cells

def empty : DataType → Cells
  | .int => ints []
  | .text => texts []
  | .boolean => bools []

def dataType : Cells → DataType
  | ints _ => .int
  | texts _ => .text
  | bools _ => .boolean

def length : Cells → Nat
  | ints xs => xs.length
  | texts xs => xs.length
  | bools xs => xs.length

/-- a payload that stands under an empty cell -/
def pushPlaceholder : Cells → Cells
  | ints xs => ints (xs ++ [0])
  | texts xs => texts (xs ++ [""])
  | bools xs => bools (xs ++ [false])

/-- a payload at the end, if it has the type -/
def push? : Cells → Value → Option Cells
  | ints xs, .int n => some (ints (xs ++ [n]))
  | texts xs, .text s => some (texts (xs ++ [s]))
  | bools xs, .bool b => some (bools (xs ++ [b]))
  | _, _ => none

def set? : Cells → Nat → Value → Option Cells
  | ints xs, pos, .int n => some (ints (xs.set pos n))
  | texts xs, pos, .text s => some (texts (xs.set pos s))
  | bools xs, pos, .bool b => some (bools (xs.set pos b))
  | _, _, _ => none

def remove : Cells → Nat → Cells
  | ints xs, pos => ints (xs.eraseIdx pos)
  | texts xs, pos => texts (xs.eraseIdx pos)
  | bools xs, pos => bools (xs.eraseIdx pos)

def get? : Cells → Nat → Option Value
  | ints xs, pos => xs[pos]?.map .int
  | texts xs, pos => xs[pos]?.map .text
  | bools xs, pos => xs[pos]?.map .bool

end Cells

/-- payloads, and which of the cells are empty -/
structure Column where
  cells : Cells
  nulls : List Bool
  deriving DecidableEq

namespace Column

def empty (t : DataType) : Column := ⟨.empty t, []⟩

def dataType (c : Column) : DataType := c.cells.dataType

def length (c : Column) : Nat := c.nulls.length

/-- the value of a row, `none` past the end -/
def get? (c : Column) (pos : Nat) : Option Value :=
  match c.nulls[pos]? with
  | none => none
  | some true => some .null
  | some false => c.cells.get? pos

def values (c : Column) : List Value := (List.range c.length).filterMap c.get?

def push (c : Column) (v : Value) : Except Error Column :=
  match v with
  | .null => .ok ⟨c.cells.pushPlaceholder, c.nulls ++ [true]⟩
  | v =>
    match c.cells.push? v with
    | some cells => .ok ⟨cells, c.nulls ++ [false]⟩
    | none => .error (.internal (.pushed v c.dataType))

/-- another value in a row; emptying a cell leaves its payload -/
def set (c : Column) (pos : Nat) (v : Value) : Except Error Column :=
  if c.length ≤ pos then .error (.internal (.rowOutOfBounds pos))
  else
    match v with
    | .null => .ok ⟨c.cells, c.nulls.set pos true⟩
    | v =>
      match c.cells.set? pos v with
      | some cells => .ok ⟨cells, c.nulls.set pos false⟩
      | none => .error (.internal (.stored v c.dataType))

/-- without a row; later rows move up by one -/
def remove (c : Column) (pos : Nat) : Except Error Column :=
  if c.length ≤ pos then .error (.internal (.rowOutOfBounds pos))
  else .ok ⟨c.cells.remove pos, c.nulls.eraseIdx pos⟩

def clear (c : Column) : Column := empty c.dataType

end Column

end TableStore
