import TableStore.Proofs.Column
import TableStore.Proofs.Outcome
import TableStore.Proofs.Schema
import TableStore.Table.Basic

/-!
# What a table stores

* `Contents`             a name, a schema, and rows of values: what is to be seen of a table;
* `Table.Lays`           the columns of a table lay out given rows;
* `Index.Serves`         an index is the one that a column asks for, and tracks its values;
* `Table.Stores`         the table has the contents: its columns lay out the rows, its schema admits
                         them, and each constrained column has its index;
* `Table.stores_ofSchema`   a new table stores no rows;
* `Indexed.step_ok`      a step on the index of one column leaves the other indexes as they are.
-/

namespace TableStore

/-- what is to be seen of a table -/
structure Contents where
  name : String
  schema : Schema
  rows : List (List Value)
  deriving DecidableEq

/-- the index that a column asks for, over these values -/
structure Index.Serves (i : Index) (d : ColumnDef) (vs : List Value) : Prop where
  clear : i.clear = ofDef d
  tracks : i.Tracks vs

theorem Index.Serves.column {i : Index} {d : ColumnDef} {vs : List Value} (h : i.Serves d vs) :
    i.column = d.name := congrArg (·.column) h.clear

theorem Index.Serves.isUnique {i : Index} {d : ColumnDef} {vs : List Value} (h : i.Serves d vs) :
    i.isUnique = d.isConstrained :=
  (congrArg (·.isUnique) h.clear).trans (Bool.or_comm _ _)

namespace Table

/-- the columns of the table lay out the rows -/
structure Lays (t : Table) (rows : List (List Value)) : Prop where
  count : t.rowCount = rows.length
  width : t.columns.length = t.schema.columns.length
  columns : ∀ (j : Nat) (d : ColumnDef) (c : Column), t.schema.columns[j]? = some d →
    t.columns[j]? = some c → c.Reads d.type (columnOf j rows)

/-- each constrained column has its index, over the values that `vs` gives it -/
structure Indexed (s : Schema) (indexes : List Index) (vs : Nat → List Value) : Prop where
  names : indexes.map (·.column) = (s.columns.filter (·.isConstrained)).map (·.name)
  serves : ∀ i ∈ indexes, ∃ (j : Nat) (d : ColumnDef), s.columns[j]? = some d ∧ i.Serves d (vs j)

/-- the table has the contents -/
structure Stores (t : Table) (c : Contents) : Prop where
  name : t.name = c.name
  schema : t.schema = c.schema
  valid : c.schema.Valid
  admits : c.schema.Admits c.rows
  lays : t.Lays c.rows
  indexed : Indexed c.schema t.indexes (columnOf · c.rows)

/-! ## rows -/

section
variable {t : Table} {rows : List (List Value)}

theorem Lays.column (h : t.Lays rows) {j : Nat} {c : Column} (hc : t.columns[j]? = some c) :
    ∃ d, t.schema.columns[j]? = some d ∧ c.Reads d.type (columnOf j rows) := by
  have hj : j < t.schema.columns.length := h.width ▸ (List.getElem?_eq_some_iff.1 hc).1
  have hd := List.getElem?_eq_getElem hj
  exact ⟨_, hd, h.columns j _ c hd hc⟩

/-- the column at a place reads as the values of the rows there -/
theorem Lays.get? (h : t.Lays rows) (hlen : ∀ row ∈ rows, row.length = t.schema.columns.length)
    {j : Nat} {c : Column} (hc : t.columns[j]? = some c) {pos : Nat} {row : List Value}
    (hrow : rows[pos]? = some row) : c.get? pos = row[j]? := by
  obtain ⟨d, -, hreads⟩ := h.column hc
  have hj : j < row.length := by
    rw [hlen row (List.mem_of_getElem? hrow), ← h.width]
    exact (List.getElem?_eq_some_iff.1 hc).1
  rw [hreads.get, getElem?_columnOf, hrow, Option.map_some, List.getElem?_eq_getElem hj,
    Option.getD_some]

/-- the value in a column and a row; empty outside the table -/
theorem Lays.valueAt_eq (h : t.Lays rows)
    (hlen : ∀ row ∈ rows, row.length = t.schema.columns.length) (j pos : Nat) :
    t.valueAt j pos = ((rows[pos]?).bind (·[j]?)).getD .null := by
  unfold valueAt
  congr 1
  cases hrow : rows[pos]? with
  | some row =>
    cases hc : t.columns[j]? with
    | some c => exact h.get? hlen hc hrow
    | none =>
      have hj : row.length ≤ j := by
        rw [hlen row (List.mem_of_getElem? hrow), ← h.width]
        exact List.getElem?_eq_none_iff.1 hc
      exact (List.getElem?_eq_none hj).symm
  | none =>
    cases hc : t.columns[j]? with
    | none => rfl
    | some c =>
      obtain ⟨d, -, hreads⟩ := h.column hc
      show c.get? pos = none
      rw [hreads.get, getElem?_columnOf, hrow]
      rfl

theorem valuesAt_eq {pos : Nat} {cs : List Column} {row : List Value}
    (hlen : cs.length = row.length)
    (hget : ∀ (j : Nat) (c : Column), cs[j]? = some c → c.get? pos = row[j]?) :
    valuesAt pos cs = some row := by
  induction cs generalizing row with
  | nil =>
    obtain rfl := List.eq_nil_of_length_eq_zero hlen.symm
    rfl
  | cons c cs ih =>
    cases row with
    | nil => cases hlen
    | cons v row =>
      have hv : c.get? pos = some v := hget 0 c rfl
      have hrest : valuesAt pos cs = some row :=
        ih (Nat.succ.inj hlen) fun j d hd => hget (j + 1) d hd
      unfold valuesAt
      rw [hv, hrest]
      rfl

theorem Lays.row?_eq (h : t.Lays rows)
    (hlen : ∀ row ∈ rows, row.length = t.schema.columns.length) (pos : Nat) :
    t.row? pos = (rows[pos]?).map fun row => ⟨t.schema.names, row⟩ := by
  unfold row?
  by_cases hpos : pos < rows.length
  · have hrow := List.getElem?_eq_getElem hpos
    have hwidth : t.columns.length = rows[pos].length := by
      rw [h.width, hlen _ (List.getElem_mem hpos)]
    rw [h.count, if_pos hpos, hrow, valuesAt_eq hwidth fun j c hc => h.get? hlen hc hrow]
  · rw [h.count, if_neg hpos, List.getElem?_eq_none (Nat.le_of_not_lt hpos)]
    rfl

theorem filterMap_range_getElem? {α : Type} (xs : List α) :
    (List.range xs.length).filterMap (fun pos => xs[pos]?) = xs := by
  induction xs with
  | nil => rfl
  | cons x xs ih =>
    rw [List.length_cons, List.range_succ_eq_map, List.filterMap_cons, List.filterMap_map]
    exact congrArg (x :: ·) ih

theorem Lays.rows_eq (h : t.Lays rows)
    (hlen : ∀ row ∈ rows, row.length = t.schema.columns.length) :
    t.rows = rows.map fun row => ⟨t.schema.names, row⟩ := by
  have hrow : t.row? = fun pos => (rows.map fun row => (⟨t.schema.names, row⟩ : Row))[pos]? := by
    funext pos
    rw [h.row?_eq hlen, List.getElem?_map]
  unfold Table.rows
  rw [hrow, h.count, ← List.length_map (fun row => (⟨t.schema.names, row⟩ : Row))]
  exact filterMap_range_getElem? _

end

/-! ## indexes by name -/

section
variable {s : Schema} {indexes : List Index} {vs : Nat → List Value}

theorem Indexed.nodup (h : Indexed s indexes vs) (hv : s.Valid) :
    (indexes.map (·.column)).Nodup := by
  rw [h.names]
  exact hv.names.sublist (List.filter_sublist.map _)

/-- the constrained columns have an index, and no other name has -/
theorem Indexed.mem_names_iff (h : Indexed s indexes vs) {name : String} :
    name ∈ indexes.map (·.column) ↔
      ∃ d ∈ s.columns, d.name = name ∧ d.isConstrained = true := by
  rw [h.names, List.mem_map]
  constructor
  · rintro ⟨d, hd, hname⟩
    obtain ⟨hd, hcon⟩ := List.mem_filter.1 hd
    exact ⟨d, hd, hname, hcon⟩
  · rintro ⟨d, hd, hname, hcon⟩
    exact ⟨d, List.mem_filter.2 ⟨hd, hcon⟩, hname⟩

/-- the index found for a column is its own -/
theorem Indexed.serves_of_column (h : Indexed s indexes vs) (hv : s.Valid) {i : Index}
    (hi : i ∈ indexes) {j : Nat} {d : ColumnDef} (hd : s.columns[j]? = some d)
    (hname : i.column = d.name) : i.Serves d (vs j) := by
  obtain ⟨k, e, he, hserves⟩ := h.serves i hi
  obtain ⟨rfl, rfl⟩ := hv.eq_of_name_eq he hd (hserves.column.symm.trans hname)
  exact hserves

theorem Indexed.congr {vs' : Nat → List Value} (h : Indexed s indexes vs)
    (heq : ∀ j < s.columns.length, vs' j = vs j) : Indexed s indexes vs' := by
  refine ⟨h.names, fun i hi => ?_⟩
  obtain ⟨j, d, hd, hserves⟩ := h.serves i hi
  exact ⟨j, d, hd, heq j (List.getElem?_eq_some_iff.1 hd).1 ▸ hserves⟩

end

section
variable {t : Table} {c : Contents}

theorem Stores.length_of_mem (h : t.Stores c) :
    ∀ row ∈ c.rows, row.length = t.schema.columns.length := fun row hrow => by
  rw [h.schema]
  exact (h.admits.fits row hrow).length

theorem Stores.valueAt_eq (h : t.Stores c) (j pos : Nat) :
    t.valueAt j pos = ((c.rows[pos]?).bind (·[j]?)).getD .null :=
  h.lays.valueAt_eq h.length_of_mem j pos

theorem Stores.row?_eq (h : t.Stores c) (pos : Nat) :
    t.row? pos = (c.rows[pos]?).map fun row => ⟨c.schema.names, row⟩ := by
  rw [← h.schema]
  exact h.lays.row?_eq h.length_of_mem pos

theorem Stores.rows_eq (h : t.Stores c) :
    t.rows = c.rows.map fun row => ⟨c.schema.names, row⟩ := by
  rw [← h.schema]
  exact h.lays.rows_eq h.length_of_mem

theorem mem_of_index? {name : String} {i : Index} (hi : t.index? name = some i) :
    i ∈ t.indexes ∧ i.column = name :=
  ⟨List.mem_of_find?_eq_some hi, of_decide_eq_true (List.find?_some hi :)⟩

/-- an index is found for the constrained columns, and for no other -/
theorem Stores.index?_isSome_iff (h : t.Stores c) {name : String} :
    (t.index? name).isSome = true ↔
      ∃ d ∈ c.schema.columns, d.name = name ∧ d.isConstrained = true := by
  rw [← h.indexed.mem_names_iff, List.mem_map]
  unfold index?
  rw [List.find?_isSome]
  simp only [decide_eq_true_iff]

theorem Stores.serves (h : t.Stores c) {j : Nat} {d : ColumnDef} {i : Index}
    (hd : c.schema.columns[j]? = some d) (hi : t.index? d.name = some i) :
    i.Serves d (columnOf j c.rows) := by
  obtain ⟨hmem, hname⟩ := mem_of_index? hi
  exact h.indexed.serves_of_column h.valid hmem hd hname

/-- an index that is found is that of a constrained column, and records its values -/
theorem Stores.of_index? (h : t.Stores c) {name : String} {i : Index}
    (hi : t.index? name = some i) :
    ∃ (j : Nat) (d : ColumnDef), c.schema.columns[j]? = some d ∧ d.name = name ∧
      d.isConstrained = true ∧ i.Serves d (columnOf j c.rows) := by
  obtain ⟨d, hd, rfl, hcon⟩ := h.index?_isSome_iff.1 (Option.isSome_iff_exists.2 ⟨i, hi⟩)
  obtain ⟨j, hj⟩ := List.mem_iff_getElem?.1 hd
  exact ⟨j, d, hj, rfl, hcon, h.serves hj hi⟩

theorem Stores.constrained_of_index? (h : t.Stores c) {j : Nat} {d : ColumnDef} {i : Index}
    (hd : c.schema.columns[j]? = some d) (hi : t.index? d.name = some i) :
    d.isConstrained = true := by
  obtain ⟨k, e, he, hname, hcon, -⟩ := h.of_index? hi
  rw [← (h.valid.eq_of_name_eq he hd hname).2]
  exact hcon

theorem Stores.exists_index? (h : t.Stores c) {d : ColumnDef} (hd : d ∈ c.schema.columns)
    (hcon : d.isConstrained = true) : ∃ i, t.index? d.name = some i :=
  Option.isSome_iff_exists.1 (h.index?_isSome_iff.2 ⟨d, hd, rfl, hcon⟩)

/-- tables with the same contents have indexes on the same columns, over the same values -/
theorem Stores.index?_cases {u : Table} (h : t.Stores c) (h' : u.Stores c) (column : String) :
    (t.index? column = none ∧ u.index? column = none) ∨
      ∃ i i' d vs, t.index? column = some i ∧ u.index? column = some i' ∧ i.Serves d vs ∧
        i'.Serves d vs := by
  have hiff : (t.index? column).isSome = true ↔ (u.index? column).isSome = true := by
    rw [h.index?_isSome_iff, h'.index?_isSome_iff]
  cases hi : t.index? column with
  | none =>
    rw [hi] at hiff
    cases hi' : u.index? column with
    | none => exact Or.inl ⟨rfl, rfl⟩
    | some i' =>
      rw [hi'] at hiff
      cases hiff.2 rfl
  | some i =>
    rw [hi] at hiff
    obtain ⟨i', hi'⟩ := Option.isSome_iff_exists.1 (hiff.1 rfl)
    obtain ⟨j, d, hd, rfl, -, hserves⟩ := h.of_index? hi
    exact Or.inr ⟨i, i', d, columnOf j c.rows, rfl, hi', hserves, h'.serves hd hi'⟩

end

/-! ## the empty table -/

theorem stores_ofSchema (name : String) {s : Schema} (hv : s.Valid) :
    (ofSchema name s).Stores ⟨name, s, []⟩ where
  name := rfl
  schema := rfl
  valid := hv
  admits := s.admits_nil
  lays := by
    refine ⟨rfl, List.length_map _, fun j d c hd hc => ?_⟩
    have hmap : (s.columns.map fun d => Column.empty d.type)[j]? = some c := hc
    rw [List.getElem?_map, show s.columns[j]? = some d from hd] at hmap
    cases hmap
    exact Column.reads_empty d.type
  indexed := by
    refine ⟨?_, fun i hi => ?_⟩
    · show (((s.columns.filter (·.isConstrained)).map Index.ofDef).map (·.column)) = _
      rw [List.map_map]
      rfl
    · obtain ⟨d, hd, rfl⟩ := List.mem_map.1 hi
      obtain ⟨j, hj⟩ := List.mem_iff_getElem?.1 (List.mem_filter.1 hd).1
      exact ⟨j, d, hj, rfl, Index.tracks_clear (Index.ofDef d)⟩

/-! ## steps on one index -/

/-- a step on the index of a name changes that index alone -/
theorem onIndex_ok (name : String) (step : Index → Outcome Index Unit) {is : List Index}
    (hnodup : (is.map (·.column)).Nodup)
    (hstep : ∀ i ∈ is, i.column = name → ∃ i', step i = .ok () i' ∧ i'.clear = i.clear) :
    ∃ is', onIndex name step is = .ok () is' ∧ is'.map (·.column) = is.map (·.column) ∧
      ∀ i' ∈ is', (i' ∈ is ∧ i'.column ≠ name) ∨
        ∃ i ∈ is, i.column = name ∧ step i = .ok () i' := by
  induction is with
  | nil => exact ⟨[], rfl, rfl, by simp⟩
  | cons i is ih =>
    rw [List.map_cons, List.nodup_cons] at hnodup
    unfold onIndex
    by_cases hname : i.column = name
    · obtain ⟨i', hi', hclear⟩ := hstep i List.mem_cons_self hname
      have hcolumn : i'.column = i.column := congrArg (·.column) hclear
      refine ⟨i' :: is, ?_, ?_, fun k hk => ?_⟩
      · rw [if_pos hname, hi', Outcome.within_ok]
      · rw [List.map_cons, List.map_cons, hcolumn]
      · rcases List.mem_cons.1 hk with rfl | hk
        · exact Or.inr ⟨i, List.mem_cons_self, hname, hi'⟩
        · refine Or.inl ⟨List.mem_cons_of_mem _ hk, fun he => hnodup.1 ?_⟩
          exact List.mem_map.2 ⟨k, hk, he.trans hname.symm⟩
    · obtain ⟨is', his', hnames, hmem⟩ :=
        ih hnodup.2 fun k hk => hstep k (List.mem_cons_of_mem _ hk)
      refine ⟨i :: is', ?_, ?_, fun k hk => ?_⟩
      · rw [if_neg hname, his', Outcome.within_ok]
      · rw [List.map_cons, List.map_cons, hnames]
      · rcases List.mem_cons.1 hk with rfl | hk
        · exact Or.inl ⟨List.mem_cons_self, hname⟩
        · rcases hmem k hk with ⟨hk, hne⟩ | ⟨l, hl, hlname, hlstep⟩
          · exact Or.inl ⟨List.mem_cons_of_mem _ hk, hne⟩
          · exact Or.inr ⟨l, List.mem_cons_of_mem _ hl, hlname, hlstep⟩

/-- a step that takes the index of one column to other values leaves the others theirs -/
theorem Indexed.step_ok {s : Schema} {is : List Index} {vs vs' : Nat → List Value}
    (h : Indexed s is vs) (hv : s.Valid) {j : Nat} {d : ColumnDef} (hd : s.columns[j]? = some d)
    (step : Index → Outcome Index Unit) (hother : ∀ k, k ≠ j → vs' k = vs k)
    (hstep : ∀ i, i.Serves d (vs j) → ∃ i', step i = .ok () i' ∧ i'.Serves d (vs' j)) :
    ∃ is', onIndex d.name step is = .ok () is' ∧ Indexed s is' vs' := by
  obtain ⟨is', hok, hnames, hmem⟩ := onIndex_ok d.name step (h.nodup hv) fun i hi hname => by
    have hserves := h.serves_of_column hv hi hd hname
    obtain ⟨i', hi', hserves'⟩ := hstep i hserves
    exact ⟨i', hi', hserves'.clear.trans hserves.clear.symm⟩
  refine ⟨is', hok, hnames.trans h.names, fun i' hi' => ?_⟩
  rcases hmem i' hi' with ⟨hi', hne⟩ | ⟨i, hi, hname, hsame⟩
  · obtain ⟨k, e, he, hserves⟩ := h.serves i' hi'
    have hkj : k ≠ j := by
      rintro rfl
      rw [hd] at he
      cases he
      exact hne hserves.column
    exact ⟨k, e, he, hother k hkj ▸ hserves⟩
  · obtain ⟨i'', hok', hserves⟩ := hstep i (h.serves_of_column hv hi hd hname)
    rw [hok'] at hsame
    cases hsame
    exact ⟨j, d, hd, hserves⟩

end Table

end TableStore
