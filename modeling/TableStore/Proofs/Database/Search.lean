import TableStore.Proofs.Database.Consistency
import TableStore.Proofs.Table.Selection

/-!
# Searches answer what they are asked

* `Table.Selection`                     the rows that a condition asks for, said without any search:
                                        by the cells that the rows show, position by position;
* `Table.positions`, `Table.FindsAt`    the positions whose rows a search answers with;
* `Table.Stores.find_cases`             they are those whose cell satisfies the operator, or the
                                        condition means nothing in the table;
* `Database.find_eq_scan_of_reachable`  in a table that can be reached the search by index and the
                                        look at every row answer with these rows, or fail alike.
-/

namespace TableStore

namespace Table

/-- the positions whose cell in a column stands in a relation to a value, in their order -/
def positionsWhere (t : Table) (column : String) (op : Comparison) (v : Value) : List Nat :=
  (List.range t.rowCount).filter fun pos => (t.cell? column pos).any (op.holds · v)

/-- the rows that a condition asks for, none of them missing: those whose cell stands in the
relation to the literal, brought to the type of the column, or all of them -/
inductive Selection (t : Table) : Option Condition → List Row → Prop where
  | all {rows : List Row} (h : rows.map some = (List.range t.rowCount).map t.row?) :
    Selection t none rows
  | satisfying {k : Condition} {d : ColumnDef} {v : Value} {rows : List Row}
    (mem : d ∈ t.schema.columns) (column : k.column.columnIn? t.name = some d.name)
    (literal : d.type.coerce? k.value = some v)
    (h : rows.map some = (t.positionsWhere d.name k.op v).map t.row?) :
    Selection t (some k) rows

/-- the positions whose rows a search answers with, by the index where equality has one -/
def positions (t : Table) (k : Condition) : Except Error (List Nat) :=
  (t.predicate k).map fun p =>
    match t.indexFor? p with
    | some i => i.find p.value
    | none => t.matching (some p)

/-- a search answers with the rows at these positions, none of them missing -/
structure FindsAt (t : Table) (k : Condition) (ps : List Nat) (rows : List Row) : Prop where
  positions : t.positions k = .ok ps
  find : t.find (some k) = .ok rows
  rows : rows.map some = ps.map t.row?

section
variable {t : Table} {c : Contents}

theorem mem_positionsWhere {column : String} {op : Comparison} {v : Value} {pos : Nat} :
    pos ∈ t.positionsWhere column op v ↔
      pos < t.rowCount ∧ (t.cell? column pos).any (op.holds · v) = true := by
  unfold positionsWhere
  rw [List.mem_filter, List.mem_range]

/-- the cell at a position is the cell of the row that stands there -/
theorem mem_positionsWhere_of_row? {pos : Nat} {row : Row}
    (h : t.row? pos = some row) {column : String} {op : Comparison} {v : Value} :
    pos ∈ t.positionsWhere column op v ↔ (row.get? column).any (op.holds · v) = true := by
  have hlt : pos < t.rowCount := by
    by_contra hge
    rw [row?, if_neg hge] at h
    cases h
  rw [mem_positionsWhere, and_iff_right hlt, cell?, h, Option.bind_some]

theorem positionsWhere_ascending (t : Table) (column : String) (op : Comparison) (v : Value) :
    (t.positionsWhere column op v).Pairwise (· < ·) := List.pairwise_lt_range.filter _

theorem Stores.positionsWhere_eq (h : t.Stores c) {p : Predicate} {d : ColumnDef}
    (hd : c.schema.columns[p.column]? = some d) :
    t.positionsWhere d.name p.op p.value = t.matching (some p) := by
  rw [h.matching_eq, positionsWhere, h.lays.count]
  apply List.filter_congr
  intro pos hpos
  rw [h.cell?_eq hd, getElem?_columnOf, List.getElem?_eq_getElem (List.mem_range.1 hpos)]
  rfl

theorem Stores.isSome_row? (h : t.Stores c) {p : Option Predicate} {pos : Nat}
    (hpos : pos ∈ t.matching p) : (t.row? pos).isSome = true := by
  obtain ⟨row, hrow, -⟩ := h.mem_matching.1 hpos
  rw [h.row?_eq, hrow]
  rfl

/-- the rows at matching positions are known by the positions, as none of them is missing -/
theorem Stores.rowsAt_eq_iff (h : t.Stores c) {p : Option Predicate} {rows : List Row} :
    t.rowsAt (t.matching p) = rows ↔ rows.map some = (t.matching p).map t.row? := by
  have hall : (t.rowsAt (t.matching p)).map some = (t.matching p).map t.row? :=
    map_some_filterMap fun pos hpos => h.isSome_row? hpos
  rw [← hall]
  constructor
  · rintro rfl
    rfl
  · intro he
    exact (List.map_injective_iff.2 (fun _ _ => Option.some.inj) he).symm

/-! ## the positions of the rows found -/

theorem find_eq_map (t : Table) (k : Condition) :
    t.find (some k) = (t.positions k).map t.rowsAt := by
  rw [find, positions]
  cases t.predicate k with
  | error e => rfl
  | ok p =>
    apply congrArg Except.ok
    dsimp only
    cases t.indexFor? p <;> rfl

theorem Stores.positions_eq (h : t.Stores c) (k : Condition) :
    t.positions k = (t.predicate k).map fun p => t.matching (some p) := by
  unfold positions
  apply congrArg fun f => (t.predicate k).map f
  funext p
  cases hi : t.indexFor? p with
  | none => rfl
  | some i => exact h.find_eq_matching hi

theorem Stores.findsAt (h : t.Stores c) {k : Condition} {p : Predicate}
    (hp : t.predicate k = .ok p) :
    t.FindsAt k (t.matching (some p)) (t.rowsAt (t.matching (some p))) := by
  have hpositions : t.positions k = .ok (t.matching (some p)) := by
    rw [h.positions_eq, hp]
    rfl
  refine ⟨hpositions, ?_, h.rowsAt_eq_iff.1 rfl⟩
  rw [find_eq_map, hpositions]
  rfl

/-- a condition on a column with a literal for it matches where the cell stands in the relation -/
theorem Stores.predicate_of_column (h : t.Stores c) {k : Condition} {d : ColumnDef} {v : Value}
    (hd : d ∈ t.schema.columns) (hname : k.column.columnIn? t.name = some d.name)
    (hv : d.type.coerce? k.value = some v) :
    ∃ p, t.predicate k = .ok p ∧ t.matching (some p) = t.positionsWhere d.name k.op v := by
  obtain ⟨j, hj⟩ := List.mem_iff_getElem?.1 hd
  refine ⟨⟨j, k.op, v⟩, ?_, (h.positionsWhere_eq (p := ⟨j, k.op, v⟩) (h.schema ▸ hj)).symm⟩
  exact (predicate_eq_ok_iff (h.schema ▸ h.valid)).2 ⟨d, hname, hj, hv, rfl⟩

/-- so these are the positions that a search finds -/
theorem Stores.findsAt_of_column (h : t.Stores c) {k : Condition} {d : ColumnDef} {v : Value}
    (hd : d ∈ t.schema.columns) (hname : k.column.columnIn? t.name = some d.name)
    (hv : d.type.coerce? k.value = some v) :
    ∃ rows, t.FindsAt k (t.positionsWhere d.name k.op v) rows := by
  obtain ⟨p, hp, hmatching⟩ := h.predicate_of_column hd hname hv
  have hfinds := h.findsAt hp
  rw [hmatching] at hfinds
  exact ⟨_, hfinds⟩

/-- unless the table has no such column, or the type of the column does not take the literal -/
theorem Stores.find_cases (h : t.Stores c) {k : Condition} {name : String}
    (hname : k.column.columnIn? t.name = some name) :
    ((∃ e, t.find (some k) = .error e) ∧
        (t.schema.column? name).bind (·.type.coerce? k.value) = none) ∨
      ∃ v rows, (t.schema.column? name).bind (·.type.coerce? k.value) = some v ∧
        t.FindsAt k (t.positionsWhere name k.op v) rows := by
  cases hbind : (t.schema.column? name).bind (·.type.coerce? k.value) with
  | none =>
    refine Or.inl ⟨?_, rfl⟩
    rw [find_eq_map, h.positions_eq]
    cases hp : t.predicate k with
    | error e => exact ⟨e, rfl⟩
    | ok p =>
      have hv : t.schema.Valid := h.schema ▸ h.valid
      obtain ⟨d, hname', hd, hvalue, -⟩ := (predicate_eq_ok_iff hv).1 hp
      obtain rfl : d.name = name := Option.some.inj (hname'.symm.trans hname)
      rw [hv.column?_eq hd, Option.bind_some, hvalue] at hbind
      cases hbind
  | some v =>
    obtain ⟨d, hcolumn, hvalue⟩ := Option.bind_eq_some_iff.1 hbind
    obtain rfl : d.name = name := of_decide_eq_true (List.find?_some hcolumn :)
    obtain ⟨rows, hfinds⟩ := h.findsAt_of_column (List.mem_of_find?_eq_some hcolumn) hname hvalue
    exact Or.inr ⟨v, rows, rfl, hfinds⟩

theorem Stores.scan_eq_ok_iff (h : t.Stores c) {k : Option Condition} {rows : List Row} :
    t.scan k = .ok rows ↔ t.Selection k rows := by
  have hv : t.schema.Valid := h.schema ▸ h.valid
  cases k with
  | none =>
    constructor
    · intro hscan
      exact .all ((h.rowsAt_eq_iff (p := none)).1 (Except.ok.inj hscan))
    · rintro ⟨hrows⟩
      exact congrArg Except.ok ((h.rowsAt_eq_iff (p := none)).2 hrows)
  | some k =>
    rw [scan_eq_map, mapM_predicate_some]
    constructor
    · intro hscan
      cases hp : t.predicate k with
      | error e =>
        rw [hp] at hscan
        cases hscan
      | ok p =>
        rw [hp] at hscan
        obtain ⟨d, hname, hd, hvalue, hop⟩ := (predicate_eq_ok_iff hv).1 hp
        refine .satisfying (List.mem_of_getElem? hd) hname hvalue ?_
        rw [← hop, h.positionsWhere_eq (h.schema ▸ hd)]
        exact h.rowsAt_eq_iff.1 (Except.ok.inj hscan)
    · rintro (_ | @⟨_, d, v, _, hmem, hname, hvalue, hrows⟩)
      obtain ⟨p, hp, hmatching⟩ := h.predicate_of_column hmem hname hvalue
      rw [← hmatching] at hrows
      rw [hp]
      exact congrArg Except.ok (h.rowsAt_eq_iff.2 hrows)

end

end Table

namespace Database

/-- in a table that can be reached the search by index and the look at every row answer alike: with
the rows that the condition asks for, or with the same failure where it asks for none -/
theorem find_eq_scan_of_reachable {db : Database} (h : db.Reachable) {e : String × Table}
    (he : e ∈ db.tables) (k : Option Condition) :
    e.2.find k = e.2.scan k ∧ ∀ rows, e.2.find k = .ok rows ↔ e.2.Selection k rows := by
  obtain ⟨c, hstores, -⟩ := h.sound.tables e he
  refine ⟨hstores.find_eq_scan k, fun rows => ?_⟩
  rw [hstores.find_eq_scan k]
  exact hstores.scan_eq_ok_iff

/-- users whose address is missing -/
def withoutMail : Condition := ⟨⟨some "users", "mail"⟩, .equal, .null⟩

theorem find_eq_scan_users :
    ∃ t, users.table? "users" = some t ∧ t.find (some withoutMail) = t.scan (some withoutMail) ∧
      t.Selection (some withoutMail) [⟨["id", "mail"], [.int 3, .null]⟩] := by
  have hfind : (users.table? "users").map (·.find (some withoutMail))
      = some (.ok [⟨["id", "mail"], [.int 3, .null]⟩]) := by decide +kernel
  obtain ⟨t, ht, hrows⟩ := Option.map_eq_some_iff.1 hfind
  have hmem : ("users", t) ∈ users.tables := Keyed.mem_of_lookup ht
  obtain ⟨heq, hiff⟩ := find_eq_scan_of_reachable reachable_users hmem (some withoutMail)
  exact ⟨t, ht, heq, (hiff _).1 hrows⟩

end Database

end TableStore
