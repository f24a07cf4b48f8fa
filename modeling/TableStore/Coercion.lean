import TableStore.Value
import TableStore.Text.Blank

/-!
# Bringing a value to a type

* `DataType.holds`    a column of the type may store the value; every type holds `null`;
* `DataType.coerce?`  the value of the type that the given one stands for: text that reads as an
  integer or a truth value, `1` and `0` as truth values, the plain text of anything.
-/

namespace TableStore

/-- a column of the type may store the value -/
def DataType.holds (t : DataType) (v : Value) : Bool :=
  match v.dataType? with
  | none => true
  | some s => s = t

/-- the truth value that a text spells, in any letter case -/
def truth? (s : String) : Option Bool :=
  if s.toList.map Char.toLower = "true".toList then some true
  else if s.toList.map Char.toLower = "false".toList then some false
  else none

/-- the value of the type that `v` stands for -/
def DataType.coerce? : DataType → Value → Option Value
  | _, .null => some .null
  | .int, .int n => some (.int n)
  | .int, .text s => (Numeral.read? (Text.trim s.toList)).map .int
  | .int, .bool _ => none
  | .text, v => some (.text v.plain)
  | .boolean, .bool b => some (.bool b)
  | .boolean, .int n =>
    if n = 1 then some (.bool true) else if n = 0 then some (.bool false) else none
  | .boolean, .text s => (truth? s).map .bool

theorem coerce?_of_holds {t : DataType} {v : Value} (h : t.holds v = true) :
    t.coerce? v = some v := by
  cases t <;> cases v <;> simp_all [DataType.holds, Value.dataType?, DataType.coerce?, Value.plain]

theorem holds_of_coerce? {t : DataType} {v w : Value} (h : t.coerce? v = some w) :
    t.holds w = true := by
  unfold DataType.coerce? at h
  split at h
  case h_3 | h_8 =>
    obtain ⟨_, -, rfl⟩ := Option.map_eq_some_iff.1 h
    rfl
  case h_7 =>
    split at h
    · cases h; rfl
    · split at h
      · cases h; rfl
      · contradiction
  case h_4 => contradiction
  all_goals cases h; rfl

example : DataType.int.coerce? (.text " +42\n") = some (.int 42) := by decide +kernel
example : DataType.boolean.coerce? (.text "TRUE") = some (.bool true) := by decide +kernel
example : DataType.boolean.coerce? (.int 2) = none := by decide

end TableStore
