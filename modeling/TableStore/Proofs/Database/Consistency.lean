import TableStore.Proofs.Database.Reachable

/-!
# What holds of every database that can be reached

* `Table.IndexesExact`       each constrained column has an index, no other column has one, and an
                             index answers what the rows say;
* `Table.Integral`           a proper schema, columns of one length, cells of the right types, keys
                             that are not empty, and no value twice where it may stand once;
* `Database.Integral`        all tables integral, each under its own name and no name twice;
* `Database.indexesExact_of_reachable`, `integral_of_reachable`
                             both hold of all tables that can be reached;
* `Database.apply_state_of_error`   an operation that fails changes nothing.
-/

namespace TableStore

namespace Table

/-- the value of a row in a column, as the row shows it -/
def cell? (t : Table) (column : String) (pos : Nat) : Option Value :=
  (t.row? pos).bind (·.get? column)

/-- the constrained columns have indexes, the others have none, and each answers what the rows say:
the ascending positions of a value, whether there are any, and how many rows there are -/
structure IndexesExact (t : Table) : Prop where
  isSome_iff : ∀ column, (t.index? column).isSome = true ↔
    ∃ d ∈ t.schema.columns, d.name = column ∧ d.isConstrained = true
  columns : t.indexes.map (·.column) = (t.schema.columns.filter (·.isConstrained)).map (·.name)
  find : ∀ column i, t.index? column = some i → ∀ v,
    i.find v = (List.range t.rowCount).filter fun pos => t.cell? column pos = some v
  has : ∀ column i, t.index? column = some i → ∀ v,
    i.has v = true ↔ ∃ pos, t.cell? column pos = some v
  size : ∀ column i, t.index? column = some i → i.size = t.rowCount

/-- a proper schema, and columns that keep to it -/
structure Integral (t : Table) : Prop where
  nonempty : t.schema.columns ≠ []
  names : t.schema.names.Nodup
  oneKey : t.schema.columns.countP (·.isPrimaryKey) ≤ 1
  keys : ∀ d ∈ t.schema.columns, d.isPrimaryKey = true → d.isUnique = true
  width : t.columns.length = t.schema.columns.length
  lengths : ∀ c ∈ t.columns, c.cells.length = t.rowCount ∧ c.nulls.length = t.rowCount
  filled : ∀ c ∈ t.columns, ∀ pos < t.rowCount, (c.get? pos).isSome = true
  typed : ∀ (j : Nat) (d : ColumnDef) (c : Column), t.schema.columns[j]? = some d →
    t.columns[j]? = some c → ∀ pos v, c.get? pos = some v → v = .null ∨ v.dataType? = some d.type
  keyed : ∀ (j : Nat) (d : ColumnDef) (c : Column), t.schema.columns[j]? = some d →
    t.columns[j]? = some c → d.isPrimaryKey = true → ∀ pos, c.get? pos ≠ some .null
  distinct : ∀ (j : Nat) (d : ColumnDef) (c : Column), t.schema.columns[j]? = some d →
    t.columns[j]? = some c → d.isConstrained = true →
      ∀ p q v, p ≠ q → c.get? p = some v → c.get? q = some v → v = .null

section
variable {t : Table} {c : Contents}

/-! ## tables that store rows -/

theorem Stores.cell?_eq (h : t.Stores c) {j : Nat} {d : ColumnDef}
    (hd : c.schema.columns[j]? = some d) (pos : Nat) :
    t.cell? d.name pos = (columnOf j c.rows)[pos]? := by
  unfold cell?
  rw [h.row?_eq, getElem?_columnOf]
  cases hrow : c.rows[pos]? with
  | none => rfl
  | some row =>
    have hlen := (h.admits.fits row (List.mem_of_getElem? hrow)).lt_length hd
    rw [Option.map_some, Option.bind_some, Option.map_some,
      Row.get?_eq_of_nodup h.valid.names (Schema.getElem?_names hd),
      List.getElem?_eq_getElem hlen, Option.getD_some]

theorem Stores.indexesExact (h : t.Stores c) : t.IndexesExact := by
  have hserves {column : String} {i : Index} (hi : t.index? column = some i) :
      ∃ (j : Nat) (d : ColumnDef), c.schema.columns[j]? = some d ∧ d.name = column ∧
        i.Tracks (columnOf j c.rows) := by
    obtain ⟨j, d, hd, hname, -, hserves⟩ := h.of_index? hi
    exact ⟨j, d, hd, hname, hserves.tracks⟩
  refine ⟨fun column => ?_, ?_, fun column i hi v => ?_, fun column i hi v => ?_,
    fun column i hi => ?_⟩
  · rw [h.schema]
    exact h.index?_isSome_iff
  · rw [h.schema]
    exact h.indexed.names
  · obtain ⟨j, d, hd, rfl, htracks⟩ := hserves hi
    rw [htracks.find_eq, positionsOf, length_columnOf, h.lays.count]
    exact List.filter_congr fun pos _ => by rw [h.cell?_eq hd]
  · obtain ⟨j, d, hd, rfl, htracks⟩ := hserves hi
    rw [htracks.has_iff, List.mem_iff_getElem?]
    simp only [h.cell?_eq hd]
  · obtain ⟨j, d, hd, rfl, htracks⟩ := hserves hi
    rw [htracks.size_eq, length_columnOf, h.lays.count]

/-- a value that stands in a column is one of a row that fits -/
theorem Stores.of_get? (h : t.Stores c) {j : Nat} {col : Column} (hc : t.columns[j]? = some col)
    {pos : Nat} {v : Value} (hv : col.get? pos = some v) :
    ∃ row, c.rows[pos]? = some row ∧ row[j]? = some v := by
  obtain ⟨d, -, hreads⟩ := h.lays.column hc
  have hpos := hv
  rw [hreads.get, getElem?_columnOf] at hpos
  obtain ⟨row, hrow, -⟩ := Option.map_eq_some_iff.1 hpos
  exact ⟨row, hrow, by rw [← hv, h.lays.get? h.length_of_mem hc hrow]⟩

theorem Stores.integral (h : t.Stores c) : t.Integral := by
  have hlengths {col : Column} (hc : col ∈ t.columns) :
      col.cells.length = t.rowCount ∧ col.nulls.length = t.rowCount ∧
        ∃ vs : List Value, vs.length = t.rowCount ∧ ∀ pos, col.get? pos = vs[pos]? := by
    obtain ⟨j, hj⟩ := List.mem_iff_getElem?.1 hc
    obtain ⟨d, -, hreads⟩ := h.lays.column hj
    rw [h.lays.count, ← length_columnOf j c.rows]
    exact ⟨hreads.payloads, hreads.nulls, _, rfl, hreads.get⟩
  have hvalid : t.schema.Valid := h.schema ▸ h.valid
  refine
    { nonempty := hvalid.nonempty
      names := hvalid.names
      oneKey := hvalid.oneKey
      keys := hvalid.keys
      width := h.lays.width
      lengths := fun col hc => ⟨(hlengths hc).1, (hlengths hc).2.1⟩
      filled := fun col hc pos hpos => ?_
      typed := fun j d col hd hc pos v hv => ?_
      keyed := fun j d col hd hc hkey pos hnull => ?_
      distinct := fun j d col hd hc hcon p q v hpq hp hq => ?_ }
  · obtain ⟨-, -, vs, hlen, hget⟩ := hlengths hc
    rw [hget, List.getElem?_eq_getElem (hlen.symm ▸ hpos), Option.isSome_some]
  · obtain ⟨row, hrow, hcell⟩ := h.of_get? hc hv
    have hholds := (h.admits.fits row (List.mem_of_getElem? hrow)).typed j d v (h.schema ▸ hd) hcell
    exact DataType.holds_iff.1 hholds
  · obtain ⟨row, hrow, hcell⟩ := h.of_get? hc hnull
    exact (h.admits.fits row (List.mem_of_getElem? hrow)).keyed j d .null (h.schema ▸ hd) hcell
      hkey rfl
  · obtain ⟨e, -, hreads⟩ := h.lays.column hc
    have hdistinct := h.admits.distinct j d (h.schema ▸ hd) hcon
    rw [hreads.get] at hp hq
    exact distinct_iff.1 hdistinct p q v hpq hp hq

end

end Table

namespace Database

/-- each name once, each table under its own name, and all of them integral -/
structure Integral (db : Database) : Prop where
  names : (db.tables.map (·.1)).Nodup
  registered : ∀ e ∈ db.tables, e.2.name = e.1
  tables : ∀ e ∈ db.tables, e.2.Integral

/-! ## databases that can be reached -/

section
variable {db : Database}

/-- in every table that can be reached the indexes answer what the rows say -/
theorem indexesExact_of_reachable (h : db.Reachable) {e : String × Table} (he : e ∈ db.tables) :
    e.2.IndexesExact := by
  obtain ⟨c, hstores, -⟩ := h.sound.tables e he
  exact hstores.indexesExact

theorem indexesExact_users :
    ∃ t, users.table? "users" = some t ∧ t.rowCount = 2 ∧ t.IndexesExact := by
  have hcount : (users.table? "users").map (·.rowCount) = some 2 := by decide +kernel
  obtain ⟨t, ht, hrows⟩ := Option.map_eq_some_iff.1 hcount
  have hmem : ("users", t) ∈ users.tables := Keyed.mem_of_lookup ht
  exact ⟨t, ht, hrows, indexesExact_of_reachable reachable_users hmem⟩

/-- every database that can be reached is integral -/
theorem integral_of_reachable (h : db.Reachable) : db.Integral := by
  refine ⟨h.sound.keys, fun e he => ?_, fun e he => ?_⟩
  · obtain ⟨c, hstores, hname⟩ := h.sound.tables e he
    exact hstores.name.trans hname
  · obtain ⟨c, hstores, -⟩ := h.sound.tables e he
    exact hstores.integral

theorem integral_users :
    (users.tables.map fun e => (e.1, e.2.rowCount)) = [("users", 2)] ∧ users.Integral :=
  ⟨by decide +kernel, integral_of_reachable reachable_users⟩

/-- an operation that fails leaves the database as it was -/
theorem apply_state_of_error (h : db.Reachable) (op : Operation) {e : Error}
    (he : (db.apply op).answer = .error e) : (db.apply op).state = db :=
  (h.sound.apply_atomic op).state_of_error he

/-- one address for all users -/
def oneAddress : Operation := .call "users" (.update [("mail", .text "d@x")] none)

theorem state_of_oneAddress :
    (users.apply oneAddress).answer = .error (.constraint "mail" (.duplicate false (.text "d@x"))) ∧
      (users.apply oneAddress).state = users := by
  have herror : (users.apply oneAddress).answer
      = .error (.constraint "mail" (.duplicate false (.text "d@x"))) := by decide +kernel
  exact ⟨herror, apply_state_of_error reachable_users oneAddress herror⟩

end

end Database

end TableStore
