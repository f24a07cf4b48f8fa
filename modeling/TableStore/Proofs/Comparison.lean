import TableStore.Condition
import TableStore.Proofs.Column

/-!
# What the operators say of two values

Equality is of values, while the four ordering operators go by the order inside one type, so the two
have to agree on which values are equal.

* `Value.compare?_cases`      against a value of its type a value stands in an order, which tells
                              whether the two are equal, unless it is empty;
* `Comparison.admits`         what an operator says of an order;
* `Comparison.holds_cases`    so it speaks of the order of two values, and of an empty cell it says no
                              more than that it is different;
* `Comparison.holds_one`, `holds_not_both`
                              a cell that is not empty is less, equal or greater, and no two of these.
-/

namespace TableStore

/-- a value that is not empty stands in an order to those of its type; an empty one stands in none -/
theorem Value.compare?_cases {t : DataType} {v w : Value} (hv : t.holds v = true)
    (hw : t.holds w = true) (hne : w ≠ .null) :
    v = .null ∨ v ≠ .null ∧ ∃ o, v.compare? w = some o ∧ (o = .eq ↔ v = w) := by
  by_cases hnull : v = .null
  · exact Or.inl hnull
  · have hsame : v.dataType? = w.dataType? :=
      (dataType?_of_holds hv hnull).trans (dataType?_of_holds hw hne).symm
    refine Or.inr ⟨hnull, ?_⟩
    match v, w with
    | .int a, .int b => exact ⟨compare a b, rfl, by simp⟩
    | .text a, .text b => exact ⟨compare a b, rfl, by simp⟩
    | .bool a, .bool b => exact ⟨compare a b, rfl, by simp⟩
    | .null, _ => exact absurd rfl hnull
    | _, .null => exact absurd rfl hne

namespace Comparison

/-- what an operator says of an order -/
def admits : Comparison → Ordering → Bool
  | equal, o => o.isEq
  | notEqual, o => o.isNe
  | greater, o => o.isGT
  | less, o => o.isLT
  | greaterEqual, o => o.isGE
  | lessEqual, o => o.isLE

theorem holds_of_compare? {v w : Value} {o : Ordering} (h : v.compare? w = some o)
    (heq : o = .eq ↔ v = w) (op : Comparison) : op.holds v w = op.admits o := by
  have hequal : decide (v = w) = o.isEq := by
    rw [decide_eq_decide.2 heq.symm]
    cases o <;> rfl
  cases op with
  | equal => exact hequal
  | notEqual =>
    show decide (v ≠ w) = o.isNe
    rw [decide_not, hequal]
    cases o <;> rfl
  | greater | less | greaterEqual | lessEqual => simp [holds, admits, h]

/-- an empty cell is different from a value, and that is all -/
theorem holds_null_left {w : Value} (hne : w ≠ .null) (op : Comparison) :
    op.holds .null w = decide (op = notEqual) := by
  cases op with
  | equal => exact decide_eq_false hne.symm
  | notEqual => exact decide_eq_true hne.symm
  | greater | less | greaterEqual | lessEqual => rfl

/-- an empty literal stands in no order to any cell -/
theorem holds_null_right {op : Comparison} (h : op ≠ equal) (h' : op ≠ notEqual) (v : Value) :
    op.holds v .null = false := by
  cases op with
  | equal => exact absurd rfl h
  | notEqual => exact absurd rfl h'
  | greater | less | greaterEqual | lessEqual => cases v <;> rfl

section
variable {t : DataType} {v w : Value}

/-- against a literal of its type a cell is empty and only different, or the operators say what they
say of one order -/
theorem holds_cases (hv : t.holds v = true) (hw : t.holds w = true) (hne : w ≠ .null) :
    (v = .null ∧ ∀ op : Comparison, op.holds v w = decide (op = notEqual)) ∨
      v ≠ .null ∧ ∃ o, ∀ op : Comparison, op.holds v w = op.admits o := by
  rcases Value.compare?_cases hv hw hne with rfl | ⟨hnull, o, ho, heq⟩
  · exact Or.inl ⟨rfl, holds_null_left hne⟩
  · exact Or.inr ⟨hnull, o, holds_of_compare? ho heq⟩

variable (hv : t.holds v = true) (hw : t.holds w = true) (hne : w ≠ .null)
include hv hw hne

theorem holds_lessEqual : lessEqual.holds v w = (less.holds v w || equal.holds v w) := by
  rcases holds_cases hv hw hne with ⟨-, hop⟩ | ⟨-, o, hop⟩
  · simp [hop]
  · rw [hop, hop, hop]
    cases o <;> rfl

theorem holds_greaterEqual : greaterEqual.holds v w = (greater.holds v w || equal.holds v w) := by
  rcases holds_cases hv hw hne with ⟨-, hop⟩ | ⟨-, o, hop⟩
  · simp [hop]
  · rw [hop, hop, hop]
    cases o <;> rfl

/-- a cell is less, equal or greater, if it is not empty -/
theorem holds_one :
    (less.holds v w || equal.holds v w || greater.holds v w) = decide (v ≠ .null) := by
  rcases holds_cases hv hw hne with ⟨rfl, hop⟩ | ⟨hnull, o, hop⟩
  · simp [hop]
  · rw [hop, hop, hop, decide_eq_true hnull]
    cases o <;> rfl

/-- but no two of these -/
theorem holds_not_both : ∀ op ∈ [less, equal, greater], ∀ op' ∈ [less, equal, greater], op ≠ op' →
    (op.holds v w && op'.holds v w) = false := by
  rcases holds_cases hv hw hne with ⟨-, hop⟩ | ⟨-, o, hop⟩
  · simp only [hop]
    decide
  · simp only [hop]
    cases o <;> decide

end

end Comparison

end TableStore
