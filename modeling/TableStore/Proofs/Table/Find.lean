import TableStore.Proofs.Table.Contents
import TableStore.Table.Find

/-!
# The rows that a condition selects

* `Predicate.accepts`, `selects`   a predicate on the values of a row;
* `Stores.mem_matching`            the matching positions are those of the selected rows;
* `Stores.length_matching`         and there are as many of them.
-/

namespace TableStore

/-- the row satisfies the predicate -/
def Predicate.accepts (p : Predicate) (row : List Value) : Bool :=
  p.op.holds (row[p.column]?.getD .null) p.value

/-- the row satisfies the predicate, if there is one -/
def selects (p : Option Predicate) (row : List Value) : Bool := p.all (·.accepts row)

@[simp] theorem selects_none (row : List Value) : selects none row = true := rfl

@[simp] theorem selects_some (p : Predicate) (row : List Value) :
    selects (some p) row = p.accepts row := rfl

namespace Table

variable {t : Table} {c : Contents}

theorem Lays.satisfies_eq {rows : List (List Value)} (h : t.Lays rows)
    (hlen : ∀ row ∈ rows, row.length = t.schema.columns.length) (p : Predicate) {pos : Nat}
    {row : List Value} (hrow : rows[pos]? = some row) : t.satisfies p pos = p.accepts row := by
  unfold satisfies Predicate.accepts
  rw [h.valueAt_eq hlen, hrow]
  rfl

/-- a position matches if its row is selected -/
theorem Stores.mem_matching (h : t.Stores c) {p : Option Predicate} {pos : Nat} :
    pos ∈ t.matching p ↔ ∃ row, c.rows[pos]? = some row ∧ selects p row = true := by
  have hrow : pos < t.rowCount ↔ ∃ row, c.rows[pos]? = some row := by
    rw [h.lays.count]
    exact ⟨fun hlt => ⟨_, List.getElem?_eq_getElem hlt⟩,
      fun ⟨_, hr⟩ => (List.getElem?_eq_some_iff.1 hr).1⟩
  cases p with
  | none =>
    unfold matching
    rw [List.mem_range, hrow]
    simp
  | some p =>
    unfold matching
    rw [List.mem_filter, List.mem_range, hrow]
    constructor
    · rintro ⟨⟨row, hr⟩, hp⟩
      rw [h.lays.satisfies_eq h.length_of_mem p hr] at hp
      exact ⟨row, hr, hp⟩
    · rintro ⟨row, hr, hp⟩
      refine ⟨⟨row, hr⟩, ?_⟩
      rw [h.lays.satisfies_eq h.length_of_mem p hr]
      exact hp

theorem Stores.length_matching (h : t.Stores c) (p : Option Predicate) :
    (t.matching p).length = c.rows.countP (selects p) := by
  cases p with
  | none =>
    unfold matching
    rw [List.length_range, h.lays.count]
    exact (List.countP_eq_length.2 (by simp)).symm
  | some p =>
    unfold matching
    rw [← List.countP_eq_length_filter, h.lays.count]
    nth_rewrite 2 [← filterMap_range_getElem? c.rows]
    rw [List.countP_filterMap]
    refine List.countP_congr fun pos hpos => ?_
    have hrow := List.getElem?_eq_getElem (List.mem_range.1 hpos)
    rw [h.lays.satisfies_eq h.length_of_mem p hrow, hrow, Option.map_some, Option.getD_some]
    rfl

theorem matching_ascending (t : Table) (p : Option Predicate) :
    (t.matching p).Pairwise (· < ·) := by
  cases p with
  | none => exact List.pairwise_lt_range
  | some p => exact List.pairwise_lt_range.filter _

end Table

end TableStore
