import TableStore.Proofs.Table.Insert

/-!
# The rows of a table, as they show

* `Stores.mem_rows_iff`       the rows that show are the stored ones, under the names of the columns;
* `Schema.Valid.get?_eq`      a column is read off a row at its place;
* `Stores.mem_columnOf_iff`   the values of a column are those that rows show there;
* `Row.Apart`, `apart_iff`    rows that share no value of a column.
-/

namespace TableStore

/-- no two rows hold one value in a column, but for the empty one -/
def Row.Apart (column : String) (rows : List Row) : Prop :=
  rows.Pairwise fun r r' => ∀ v, r.get? column = some v → r'.get? column = some v → v = .null

section
variable {s : Schema}

/-- a column is read off a row at its place -/
theorem Schema.Valid.get?_eq (hv : s.Valid) {j : Nat} {d : ColumnDef}
    (hd : s.columns[j]? = some d) (row : List Value) :
    (Row.mk s.names row).get? d.name = row[j]? :=
  Row.get?_eq_of_nodup hv.names (Schema.getElem?_names hd)

/-- rows are apart in a column where its values are distinct -/
theorem apart_iff (hv : s.Valid) {j : Nat} {d : ColumnDef} (hd : s.columns[j]? = some d)
    {rows : List (List Value)} (hlen : ∀ row ∈ rows, row.length = s.columns.length) :
    Row.Apart d.name (rows.map (Row.mk s.names)) ↔ Distinct (columnOf j rows) := by
  have hj : j < s.columns.length := (List.getElem?_eq_some_iff.1 hd).1
  unfold Row.Apart Distinct columnOf
  rw [List.pairwise_map, List.pairwise_map]
  refine List.Pairwise.iff_of_mem fun {row row'} hrow hrow' => ?_
  have hcell := List.getElem?_eq_getElem ((hlen row hrow).symm ▸ hj)
  have hcell' := List.getElem?_eq_getElem ((hlen row' hrow').symm ▸ hj)
  rw [hv.get?_eq hd, hv.get?_eq hd, hcell, hcell', Option.getD_some, Option.getD_some]
  constructor
  · intro h he
    exact h _ rfl (congrArg some he.symm)
  · intro h v hv hv'
    obtain rfl := Option.some.inj hv
    exact h (Option.some.inj hv').symm

end

namespace Table

variable {t : Table} {c : Contents}

theorem Stores.mem_rows_iff (h : t.Stores c) {r : Row} :
    r ∈ t.rows ↔ ∃ row ∈ c.rows, r = ⟨c.schema.names, row⟩ := by
  rw [h.rows_eq, List.mem_map]
  simp only [eq_comm]

theorem Stores.get?_of_mem (h : t.Stores c) {row : Row} (hrow : row ∈ t.rows) {j : Nat}
    {d : ColumnDef} (hd : t.schema.columns[j]? = some d) : row.get? d.name = row.values[j]? := by
  obtain ⟨vs, -, rfl⟩ := h.mem_rows_iff.1 hrow
  exact h.valid.get?_eq (h.schema ▸ hd) vs

theorem Stores.length_values (h : t.Stores c) {row : Row} (hrow : row ∈ t.rows) :
    row.values.length = t.schema.columns.length := by
  obtain ⟨vs, hvs, rfl⟩ := h.mem_rows_iff.1 hrow
  exact h.length_of_mem vs hvs

/-- a row has a value for each column -/
theorem Stores.getElem?_of_mem (h : t.Stores c) {row : Row} (hrow : row ∈ t.rows) {j : Nat}
    {d : ColumnDef} (hd : t.schema.columns[j]? = some d) : ∃ v, row.values[j]? = some v := by
  have hlt : j < row.values.length := by
    rw [h.length_values hrow]
    exact (List.getElem?_eq_some_iff.1 hd).1
  exact ⟨_, List.getElem?_eq_getElem hlt⟩

/-- the values of a column are those that rows show there -/
theorem Stores.mem_columnOf_iff (h : t.Stores c) {j : Nat} {d : ColumnDef}
    (hd : c.schema.columns[j]? = some d) {v : Value} :
    v ∈ columnOf j c.rows ↔ ∃ r ∈ t.rows, r.get? d.name = some v := by
  have hcell (row : List Value) (hrow : row ∈ c.rows) : ∃ w, row[j]? = some w :=
    ⟨_, List.getElem?_eq_getElem ((h.admits.fits row hrow).lt_length hd)⟩
  unfold columnOf
  rw [List.mem_map]
  constructor
  · rintro ⟨row, hrow, rfl⟩
    refine ⟨⟨c.schema.names, row⟩, h.mem_rows_iff.2 ⟨row, hrow, rfl⟩, ?_⟩
    obtain ⟨w, hw⟩ := hcell row hrow
    rw [h.valid.get?_eq hd, hw, Option.getD_some]
  · rintro ⟨r, hr, hv⟩
    obtain ⟨row, hrow, rfl⟩ := h.mem_rows_iff.1 hr
    rw [h.valid.get?_eq hd] at hv
    exact ⟨row, hrow, by rw [hv, Option.getD_some]⟩

end Table

end TableStore
