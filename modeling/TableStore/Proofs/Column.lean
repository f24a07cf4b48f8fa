import TableStore.Column.Cells
import TableStore.Proofs.Coercion

/-!
# A column as a list of values

* `Cells.payloads`    the payloads of a column as values;
* `Column.Reads`      the column has a type, and its rows read as a given list of values;
* `Column.Reads.push`, `set`, `remove`, `clear`   what each change does to that list, and that it
  is not refused where the value has the type and the row is there.

The payload under an empty cell does not show: `Column.Reads` speaks of what `get?` answers.
-/

namespace TableStore

/-! ## payloads -/

namespace Cells

/-- the payloads as values -/
def payloads : Cells → List Value
  | ints xs => xs.map .int
  | texts xs => xs.map .text
  | bools xs => xs.map .bool

theorem get?_eq (c : Cells) (pos : Nat) : c.get? pos = c.payloads[pos]? := by
  cases c <;> simp [get?, payloads]

theorem length_payloads (c : Cells) : c.payloads.length = c.length := by
  cases c <;> simp [payloads, length]

theorem pushPlaceholder_spec (c : Cells) :
    c.pushPlaceholder.dataType = c.dataType ∧
      ∃ v, c.pushPlaceholder.payloads = c.payloads ++ [v] := by
  cases c <;> simp [pushPlaceholder, dataType, payloads]

theorem push?_spec {c : Cells} {v : Value} (hv : v.dataType? = some c.dataType) :
    ∃ c', c.push? v = some c' ∧ c'.dataType = c.dataType ∧ c'.payloads = c.payloads ++ [v] := by
  cases c <;> cases v <;> simp_all [push?, dataType, payloads, Value.dataType?]

theorem set?_spec {c : Cells} {v : Value} (pos : Nat) (hv : v.dataType? = some c.dataType) :
    ∃ c', c.set? pos v = some c' ∧ c'.dataType = c.dataType ∧
      c'.payloads = c.payloads.set pos v := by
  cases c <;> cases v <;> simp_all [set?, dataType, payloads, Value.dataType?]

theorem remove_spec (c : Cells) (pos : Nat) :
    (c.remove pos).dataType = c.dataType ∧
      ∀ p : Nat, (c.remove pos).payloads[p]? = (c.payloads.eraseIdx pos)[p]? := by
  cases c <;> refine ⟨rfl, fun p => ?_⟩ <;>
    simp only [remove, payloads, List.getElem?_map, List.getElem?_eraseIdx] <;> split <;> rfl

theorem length_remove {c : Cells} {pos : Nat} (h : pos < c.length) :
    (c.remove pos).length = c.length - 1 := by
  cases c <;> simp_all [remove, length, List.length_eraseIdx]

end Cells

namespace Column

/-! ## what a column reads as -/

/-- a column of the type whose rows are these values -/
structure Reads (c : Column) (t : DataType) (vs : List Value) : Prop where
  type : c.dataType = t
  payloads : c.cells.length = vs.length
  nulls : c.nulls.length = vs.length
  get : ∀ pos, c.get? pos = vs[pos]?

theorem get?_eq (c : Column) (pos : Nat) :
    c.get? pos = (c.nulls[pos]?).bind fun isNull =>
      if isNull then some .null else c.cells.payloads[pos]? := by
  unfold get?
  rw [Cells.get?_eq]
  cases c.nulls[pos]? with
  | none => rfl
  | some isNull => cases isNull <;> rfl

theorem reads_empty (t : DataType) : (empty t).Reads t [] := by
  cases t <;> exact ⟨rfl, rfl, rfl, fun _ => rfl⟩

variable {c : Column} {t : DataType} {vs : List Value} {v : Value} {pos : Nat}

/-- a value that is not empty is pushed as a payload -/
theorem push_of_ne_null (c : Column) (hv : v ≠ .null) :
    c.push v = (c.cells.push? v).elim (.error (.internal (.pushed v c.dataType)))
      fun cells => .ok ⟨cells, c.nulls ++ [false]⟩ := by
  unfold Column.push
  split
  · exact absurd rfl hv
  · cases c.cells.push? v <;> rfl

/-- a value that is not empty is stored as a payload -/
theorem set_of_ne_null (hpos : pos < c.length) (hv : v ≠ .null) :
    c.set pos v = (c.cells.set? pos v).elim (.error (.internal (.stored v c.dataType)))
      fun cells => .ok ⟨cells, c.nulls.set pos false⟩ := by
  unfold Column.set
  rw [if_neg (Nat.not_le.2 hpos)]
  split
  · exact absurd rfl hv
  · cases c.cells.set? pos v <;> rfl

namespace Reads

theorem length_eq (h : c.Reads t vs) : c.length = vs.length := h.nulls

/-- one more payload and one more bit read as one more value -/
theorem append (h : c.Reads t vs) {cells : Cells} {isNull : Bool} {w : Value}
    (htype : cells.dataType = c.cells.dataType) (hcells : cells.payloads = c.cells.payloads ++ [w])
    (hv : (if isNull then .null else w) = v) :
    Reads ⟨cells, c.nulls ++ [isNull]⟩ t (vs ++ [v]) := by
  have hlen : c.cells.payloads.length = vs.length := by rw [Cells.length_payloads, h.payloads]
  refine ⟨?_, ?_, ?_, fun p => ?_⟩
  · rw [← h.type]
    exact htype
  · rw [← Cells.length_payloads, hcells, List.length_append, List.length_append, hlen]
    rfl
  · rw [List.length_append, List.length_append, h.nulls]
    rfl
  · have hold := h.get p
    rw [get?_eq] at hold ⊢
    rw [hcells, List.getElem?_append, List.getElem?_append, List.getElem?_append, hlen, h.nulls]
    by_cases hp : p < vs.length
    · rw [if_pos hp, if_pos hp, if_pos hp]
      exact hold
    · rw [if_neg hp, if_neg hp, if_neg hp, ← hv]
      cases p - vs.length with
      | zero => cases isNull <;> rfl
      | succ q => rfl

/-- a value of the type can be pushed, and becomes the last one -/
theorem push (h : c.Reads t vs) (hv : t.holds v = true) :
    ∃ c', c.push v = .ok c' ∧ c'.Reads t (vs ++ [v]) := by
  by_cases hnull : v = .null
  · subst hnull
    obtain ⟨htype, w, hcells⟩ := Cells.pushPlaceholder_spec c.cells
    exact ⟨_, rfl, h.append htype hcells rfl⟩
  · have hdata := dataType?_of_holds hv hnull
    rw [← h.type] at hdata
    obtain ⟨cells, hpush, htype, hcells⟩ := Cells.push?_spec hdata
    refine ⟨⟨cells, c.nulls ++ [false]⟩, ?_, h.append htype hcells rfl⟩
    rw [push_of_ne_null c hnull, hpush]
    rfl

/-- another payload and another bit in one row read as another value there -/
theorem write (h : c.Reads t vs) (hpos : pos < vs.length) {cells : Cells} {isNull : Bool}
    (htype : cells.dataType = c.cells.dataType) (hlen : cells.length = c.cells.length)
    (hcells : ∀ p, pos ≠ p → cells.payloads[p]? = c.cells.payloads[p]?)
    (hv : (if isNull then some .null else cells.payloads[pos]?) = some v) :
    Reads ⟨cells, c.nulls.set pos isNull⟩ t (vs.set pos v) := by
  refine ⟨?_, ?_, ?_, fun p => ?_⟩
  · rw [← h.type]
    exact htype
  · rw [hlen, h.payloads, List.length_set]
  · rw [List.length_set, List.length_set, h.nulls]
  · have hold := h.get p
    rw [get?_eq] at hold ⊢
    by_cases hp : pos = p
    · subst hp
      rw [List.getElem?_set_self (h.nulls ▸ hpos), List.getElem?_set_self hpos, ← hv]
      rfl
    · rw [List.getElem?_set_ne hp, List.getElem?_set_ne hp, hcells p hp]
      exact hold

/-- a value of the type can be stored in a row that is there -/
theorem set (h : c.Reads t vs) (hpos : pos < vs.length) (hv : t.holds v = true) :
    ∃ c', c.set pos v = .ok c' ∧ c'.Reads t (vs.set pos v) := by
  have hbound : pos < c.length := by
    rw [h.length_eq]
    exact hpos
  by_cases hnull : v = .null
  · subst hnull
    refine ⟨⟨c.cells, c.nulls.set pos true⟩, ?_, h.write hpos rfl rfl (fun _ _ => rfl) rfl⟩
    unfold Column.set
    rw [if_neg (Nat.not_le.2 hbound)]
  · have hdata := dataType?_of_holds hv hnull
    rw [← h.type] at hdata
    obtain ⟨cells, hset, htype, hcells⟩ := Cells.set?_spec pos hdata
    refine ⟨⟨cells, c.nulls.set pos false⟩, ?_, h.write hpos htype ?_ (fun p hp => ?_) ?_⟩
    · rw [set_of_ne_null hbound hnull, hset]
      rfl
    · rw [← Cells.length_payloads, hcells, List.length_set, Cells.length_payloads]
    · rw [hcells, List.getElem?_set_ne hp]
    · have hlen : pos < c.cells.payloads.length := by
        rw [Cells.length_payloads, h.payloads]
        exact hpos
      rw [hcells]
      exact List.getElem?_set_self hlen

/-- a row that is there can be removed -/
theorem remove (h : c.Reads t vs) (hpos : pos < vs.length) :
    ∃ c', c.remove pos = .ok c' ∧ c'.Reads t (vs.eraseIdx pos) := by
  have hbound : ¬ c.length ≤ pos := by
    have hn := h.nulls
    unfold Column.length
    omega
  obtain ⟨htype, hcells⟩ := Cells.remove_spec c.cells pos
  refine ⟨⟨c.cells.remove pos, c.nulls.eraseIdx pos⟩, ?_, ?_, ?_, ?_, fun p => ?_⟩
  · unfold Column.remove
    rw [if_neg hbound]
  · rw [← h.type]
    exact htype
  · rw [Cells.length_remove (h.payloads ▸ hpos), List.length_eraseIdx_of_lt hpos, h.payloads]
  · rw [List.length_eraseIdx_of_lt hpos, List.length_eraseIdx_of_lt (h.nulls ▸ hpos), h.nulls]
  · have hlow := h.get p
    have hhigh := h.get (p + 1)
    rw [get?_eq] at hlow hhigh ⊢
    rw [hcells, List.getElem?_eraseIdx, List.getElem?_eraseIdx, List.getElem?_eraseIdx]
    by_cases hp : p < pos
    · rw [if_pos hp, if_pos hp, if_pos hp]
      exact hlow
    · rw [if_neg hp, if_neg hp, if_neg hp]
      exact hhigh

theorem clear (h : c.Reads t vs) : c.clear.Reads t [] := by
  unfold Column.clear
  rw [h.type]
  exact reads_empty t

end Reads

end Column

end TableStore
