import TableStore.Proofs.Table.Find
import TableStore.Proofs.Table.Rows

/-!
# What a search answers

* `Table.predicate_eq_ok_iff`   when a condition means something in a table, and what;
* `Table.Asks`                  what it asks of a row then, said of the cells that the row shows;
* `Stores.find_eq_matching`     the index of a column gives the positions that a look at every row
                                gives;
* `Stores.find_eq`              so both searches answer with the selected rows, in their order.
-/

namespace TableStore

/-! ## picking elements of a list by their places -/

theorem filterMap_getElem?_filter {α : Type} (xs : List α) (p : α → Bool) :
    ((List.range xs.length).filter fun pos => xs[pos]?.any p).filterMap (fun pos => xs[pos]?)
      = xs.filter p := by
  have h1 : xs.filter p = ((List.range xs.length).filterMap fun pos => xs[pos]?).filter p := by
    rw [Table.filterMap_range_getElem?]
  rw [h1, List.filter_filterMap, List.filterMap_filter]
  apply List.filterMap_congr
  intro pos _
  cases xs[pos]? with
  | none => simp
  | some x => cases hx : p x <;> simp [hx, Option.filter]

theorem map_some_filterMap {α β : Type} {f : α → Option β} {xs : List α}
    (h : ∀ x ∈ xs, (f x).isSome = true) : (xs.filterMap f).map some = xs.map f := by
  induction xs with
  | nil => rfl
  | cons x xs ih =>
    rw [List.forall_mem_cons] at h
    obtain ⟨y, hy⟩ := Option.isSome_iff_exists.1 h.1
    rw [List.filterMap_cons_some hy, List.map_cons, List.map_cons, ih h.2, hy]

theorem Schema.Valid.column?_eq {s : Schema} (hv : s.Valid) {j : Nat} {d : ColumnDef}
    (hd : s.columns[j]? = some d) : s.column? d.name = some d := by
  obtain ⟨e, he, -, hcolumn⟩ := of_position? (hv.position?_eq hd)
  rw [hd] at he
  cases he
  exact hcolumn

/-- the cell of a row in a column stands in a relation to a value -/
def Row.satisfies (column : String) (op : Comparison) (v : Value) (r : Row) : Bool :=
  (r.get? column).any (op.holds · v)

namespace Table

section
variable {t : Table} {c : Contents}

/-! ## conditions -/

/-- a condition means something if its column is one of the table's and its literal can be brought
to the type of that column -/
theorem predicate_eq_ok_iff (hv : t.schema.Valid) {k : Condition} {p : Predicate} :
    t.predicate k = .ok p ↔ ∃ d, k.column.columnIn? t.name = some d.name ∧
      t.schema.columns[p.column]? = some d ∧ d.type.coerce? k.value = some p.value ∧
      p.op = k.op := by
  constructor
  · intro h
    unfold predicate at h
    split at h
    · cases h
    rename_i name hname
    split at h
    case h_2 => cases h
    rename_i j d hj hd
    obtain ⟨e, he, rfl, hcolumn⟩ := Schema.of_position? hj
    rw [hd] at hcolumn
    cases hcolumn
    cases hw : d.coerce k.value with
    | error e =>
      rw [hw] at h
      cases h
    | ok w =>
      rw [hw] at h
      cases h
      exact ⟨d, hname, he, coerce_eq_ok_iff.1 hw, rfl⟩
  · rintro ⟨d, hname, hd, hvalue, hop⟩
    unfold predicate
    simp only [hname, hv.position?_eq hd, hv.column?_eq hd, coerce_eq_ok_iff.2 hvalue, ← hop]
    rfl

/-! ## the positions of the selected rows -/

theorem Stores.satisfies_eq (h : t.Stores c) (p : Predicate) {pos : Nat} {row : List Value}
    (hrow : c.rows[pos]? = some row) : t.satisfies p pos = p.accepts row :=
  h.lays.satisfies_eq h.length_of_mem p hrow

theorem Stores.matching_eq (h : t.Stores c) (p : Option Predicate) :
    t.matching p = (List.range c.rows.length).filter fun pos => c.rows[pos]?.any (selects p) := by
  have hrow {pos : Nat} (hpos : pos ∈ List.range c.rows.length) :
      ∃ row, c.rows[pos]? = some row := ⟨_, List.getElem?_eq_getElem (List.mem_range.1 hpos)⟩
  cases p with
  | none =>
    unfold matching
    rw [h.lays.count]
    symm
    apply List.filter_eq_self.2
    intro pos hpos
    obtain ⟨row, hr⟩ := hrow hpos
    rw [hr]
    rfl
  | some p =>
    unfold matching
    rw [h.lays.count]
    apply List.filter_congr
    intro pos hpos
    obtain ⟨row, hr⟩ := hrow hpos
    rw [hr, h.satisfies_eq p hr]
    rfl

theorem Stores.rowsAt_eq (h : t.Stores c) (positions : List Nat) :
    t.rowsAt positions
      = (positions.filterMap fun pos => c.rows[pos]?).map fun row => ⟨c.schema.names, row⟩ := by
  unfold rowsAt
  rw [List.map_filterMap]
  exact congrArg (fun f => positions.filterMap f) (funext fun pos => h.row?_eq pos)

theorem Stores.rowsAt_matching (h : t.Stores c) (p : Option Predicate) :
    t.rowsAt (t.matching p) = (c.rows.filter (selects p)).map fun row => ⟨c.schema.names, row⟩ := by
  rw [h.rowsAt_eq, h.matching_eq, filterMap_getElem?_filter]

/-- the index of the column of a predicate gives the positions that a look at every row gives -/
theorem Stores.find_eq_matching (h : t.Stores c) {p : Predicate} {i : Index}
    (hi : t.indexFor? p = some i) : i.find p.value = t.matching (some p) := by
  unfold indexFor? at hi
  split at hi
  case isFalse => cases hi
  rename_i hop
  obtain ⟨d, hd, hindex⟩ := Option.bind_eq_some_iff.1 hi
  rw [h.schema] at hd
  rw [(h.serves hd hindex).tracks.find_eq, h.matching_eq, positionsOf, length_columnOf]
  apply List.filter_congr
  intro pos hpos
  rw [getElem?_columnOf, List.getElem?_eq_getElem (List.mem_range.1 hpos), Option.map_some,
    Option.any_some, selects_some, Predicate.accepts, hop]
  simp [Comparison.holds]

/-! ## both searches -/

theorem mapM_predicate_some (t : Table) (k : Condition) :
    (some k).mapM t.predicate = (t.predicate k).map some := by
  rw [Option.mapM_some]
  cases t.predicate k <;> rfl

theorem scan_eq_map (t : Table) (k : Option Condition) :
    t.scan k = (k.mapM t.predicate).map fun p => t.rowsAt (t.matching p) := by
  cases k with
  | none => rfl
  | some k =>
    rw [mapM_predicate_some, scan]
    cases t.predicate k <;> rfl

theorem Stores.find_eq_scan (h : t.Stores c) (k : Option Condition) : t.find k = t.scan k := by
  cases k with
  | none => rfl
  | some k =>
    rw [find, scan]
    apply congrArg fun f => (t.predicate k).map f
    funext p
    cases hi : t.indexFor? p with
    | none => rfl
    | some i => exact congrArg t.rowsAt (h.find_eq_matching hi)

theorem Stores.find_eq (h : t.Stores c) (k : Option Condition) :
    t.find k = (k.mapM t.predicate).map fun p =>
      (c.rows.filter (selects p)).map fun row => ⟨c.schema.names, row⟩ := by
  rw [h.find_eq_scan, scan_eq_map]
  exact congrArg (fun f => (k.mapM t.predicate).map f) (funext h.rowsAt_matching)

/-! ## what a condition asks of a row -/

/-- what a condition asks of the rows of a table: nothing if there is none, and otherwise that the
cell of its column stands in the relation to its literal, brought to the type of that column -/
inductive Asks (t : Table) : Option Condition → (Row → Bool) → Prop where
  | nothing : Asks t none fun _ => true
  | cell {k : Condition} {d : ColumnDef} {v : Value} (mem : d ∈ t.schema.columns)
    (column : k.column.columnIn? t.name = some d.name) (literal : d.type.coerce? k.value = some v) :
    Asks t (some k) (Row.satisfies d.name k.op v)

/-- a condition asks for one thing only -/
theorem Asks.unique (hv : t.schema.Valid) {k : Option Condition} {wanted wanted' : Row → Bool}
    (h : t.Asks k wanted) (h' : t.Asks k wanted') : wanted = wanted' := by
  cases h with
  | nothing =>
    cases h'
    rfl
  | @cell k d v hmem hcolumn hliteral =>
    rcases h' with _ | ⟨hmem', hcolumn', hliteral'⟩
    rw [hcolumn] at hcolumn'
    obtain rfl := hv.eq_of_mem hmem hmem' (Option.some.inj hcolumn')
    rw [hliteral] at hliteral'
    cases hliteral'
    rfl

theorem Stores.row_satisfies_eq (h : t.Stores c) {p : Predicate} {d : ColumnDef}
    (hd : c.schema.columns[p.column]? = some d) {row : List Value} (hrow : row ∈ c.rows) :
    Row.satisfies d.name p.op p.value ⟨c.schema.names, row⟩ = p.accepts row := by
  have hcell := List.getElem?_eq_getElem ((h.admits.fits row hrow).lt_length hd)
  rw [Row.satisfies, h.valid.get?_eq hd, Predicate.accepts, hcell]
  rfl

/-- what means a predicate asks for the rows that this selects -/
theorem Stores.asks_of_mapM (h : t.Stores c) {k : Option Condition} {p : Option Predicate}
    (hp : k.mapM t.predicate = .ok p) :
    ∃ wanted, t.Asks k wanted ∧ ∀ row ∈ c.rows, wanted ⟨c.schema.names, row⟩ = selects p row := by
  cases k with
  | none =>
    cases hp
    exact ⟨_, .nothing, fun _ _ => rfl⟩
  | some k =>
    rw [mapM_predicate_some, map_eq_ok_iff] at hp
    obtain ⟨p, hp, rfl⟩ := hp
    obtain ⟨d, hcolumn, hd, hliteral, hop⟩ := (predicate_eq_ok_iff (h.schema ▸ h.valid)).1 hp
    refine ⟨_, .cell (List.mem_of_getElem? hd) hcolumn hliteral, fun row hrow => ?_⟩
    rw [← hop]
    exact h.row_satisfies_eq (h.schema ▸ hd) hrow

/-- and what asks something of the rows means a predicate -/
theorem Stores.mapM_of_asks (h : t.Stores c) {k : Option Condition} {wanted : Row → Bool}
    (ha : t.Asks k wanted) : ∃ p, k.mapM t.predicate = .ok p ∧
      ∀ row ∈ c.rows, wanted ⟨c.schema.names, row⟩ = selects p row := by
  cases ha with
  | nothing => exact ⟨none, rfl, fun _ _ => rfl⟩
  | @cell k d v hmem hcolumn hliteral =>
    obtain ⟨j, hd⟩ := List.mem_iff_getElem?.1 hmem
    have hp : t.predicate k = .ok ⟨j, k.op, v⟩ :=
      (predicate_eq_ok_iff (h.schema ▸ h.valid)).2 ⟨d, hcolumn, hd, hliteral, rfl⟩
    refine ⟨some ⟨j, k.op, v⟩, ?_, fun row hrow => ?_⟩
    · rw [mapM_predicate_some, hp]
      rfl
    · exact h.row_satisfies_eq (p := ⟨j, k.op, v⟩) (h.schema ▸ hd) hrow

end

end Table

end TableStore
