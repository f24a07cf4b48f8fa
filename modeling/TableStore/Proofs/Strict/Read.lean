import TableStore.Proofs.Table.Selection

/-!
# Reading with every access checked

A cell that is not there reads as empty, and a row that is not there is left out. The definitions
here are those of a table with the same arms, except that such an access fails.

* `Strict.demand`       what has to be there, or an internal error;
* `Strict.Shaped`       every column has a bit and a payload for each of the rows;
* `Strict.row_eq`, `rows_eq`, `matching_eq`   where a table has this shape, the checks make no
  difference;
* `Strict.find_eq`      nor do they for what an index answers.
-/

namespace TableStore.Strict

/-- what has to be there, or the failure that it is not -/
def demand {α : Type} (fault : InternalFault) : Option α → Except Error α
  | some a => .ok a
  | none => .error (.internal fault)

/-- the elements that pass a check -/
def filter {α : Type} (check : α → Except Error Bool) : List α → Except Error (List α)
  | [] => .ok []
  | x :: xs => do
    let passes ← check x
    let rest ← filter check xs
    return if passes then x :: rest else rest

/-! ## columns -/

/-- the value of a row, whose bit and payload have to be there -/
def get (c : Column) (pos : Nat) : Except Error Value := do
  let isNull ← demand (.rowOutOfBounds pos) c.nulls[pos]?
  let payload ← demand (.rowOutOfBounds pos) (c.cells.get? pos)
  return if isNull then .null else payload

/-- another value in a row, whose payload has to be there -/
def set (c : Column) (pos : Nat) (v : Value) : Except Error Column :=
  if pos < c.cells.length then c.set pos v else .error (.internal (.rowOutOfBounds pos))

/-- without a row, whose payload has to be there -/
def remove (c : Column) (pos : Nat) : Except Error Column :=
  if pos < c.cells.length then c.remove pos else .error (.internal (.rowOutOfBounds pos))

example : Column.get? ⟨.ints [], [false]⟩ 0 = none := rfl
example : get ⟨.ints [], [false]⟩ 0 = .error (.internal (.rowOutOfBounds 0)) := rfl

/-! ## tables -/

def valueAt (t : Table) (column pos : Nat) : Except Error Value := do
  get (← demand (.columnOutOfBounds column) t.columns[column]?) pos

/-- a row that has to be there -/
def row (t : Table) (pos : Nat) : Except Error Row :=
  if pos < t.rowCount then
    (t.columns.mapM (get · pos)).map fun values => ⟨t.schema.names, values⟩
  else .error (.internal (.rowOutOfBounds pos))

/-- the row at a position, if the table is that long -/
def row? (t : Table) (pos : Nat) : Except Error (Option Row) :=
  if pos < t.rowCount then (row t pos).map some else .ok none

def rowsAt (t : Table) (positions : List Nat) : Except Error (List Row) := positions.mapM (row t)

def rows (t : Table) : Except Error (List Row) := rowsAt t (List.range t.rowCount)

def predicate (t : Table) (k : Condition) : Except Error Predicate :=
  match k.column.columnIn? t.name with
  | none => .error (.column (.otherTable k.column t.name))
  | some name =>
    match t.schema.position? name with
    | none => .error (.column (.unknownIn name t.name))
    | some column => do
      let d ← demand (.columnOutOfBounds column) t.schema.columns[column]?
      let value ← d.coerce k.value
      return ⟨column, k.op, value⟩

def satisfies (t : Table) (p : Predicate) (pos : Nat) : Except Error Bool :=
  (valueAt t p.column pos).map fun v => p.op.holds v p.value

def matching (t : Table) : Option Predicate → Except Error (List Nat)
  | none => .ok (List.range t.rowCount)
  | some p => filter (satisfies t p) (List.range t.rowCount)

def indexFor? (t : Table) (p : Predicate) : Except Error (Option Index) :=
  if p.op = .equal then
    (demand (.columnOutOfBounds p.column) t.schema.columns[p.column]?).map fun d => t.index? d.name
  else .ok none

def find (t : Table) : Option Condition → Except Error (List Row)
  | none => rows t
  | some k => do
    let p ← predicate t k
    match ← indexFor? t p with
    | some i => rowsAt t (i.find p.value)
    | none => rowsAt t (← matching t (some p))

def scan (t : Table) : Option Condition → Except Error (List Row)
  | none => rows t
  | some k => do
    let p ← predicate t k
    rowsAt t (← matching t (some p))

/-! ## lists -/

section
variable {α β : Type} {xs : List α}

theorem filter_eq {check : α → Except Error Bool} {p : α → Bool}
    (h : ∀ x ∈ xs, check x = .ok (p x)) : filter check xs = .ok (xs.filter p) := by
  induction xs with
  | nil => rfl
  | cons x xs ih =>
    rw [List.forall_mem_cons] at h
    rw [filter, h.1, ih h.2, List.filter_cons]
    rfl

theorem mapM_eq {f : α → Except Error β} {g : α → β} (h : ∀ x ∈ xs, f x = .ok (g x)) :
    xs.mapM f = .ok (xs.map g) := by
  induction xs with
  | nil => rfl
  | cons x xs ih =>
    rw [List.forall_mem_cons] at h
    rw [List.mapM_cons, h.1, ih h.2]
    rfl

theorem mapM_eq_filterMap {f : α → Except Error β} {g : α → Option β}
    (h : ∀ x ∈ xs, ∃ y, f x = .ok y ∧ g x = some y) : xs.mapM f = .ok (xs.filterMap g) := by
  induction xs with
  | nil => rfl
  | cons x xs ih =>
    rw [List.forall_mem_cons] at h
    obtain ⟨⟨y, hf, hg⟩, h⟩ := h
    rw [List.mapM_cons, hf, ih h, List.filterMap_cons, hg]
    rfl

theorem demand_getElem? {fault : InternalFault} {i : Nat} (h : i < xs.length) :
    demand fault xs[i]? = .ok xs[i] := by
  rw [List.getElem?_eq_getElem h]
  rfl

end

/-! ## tables in shape -/

/-- every column has a bit and a payload for each of the rows -/
structure Shaped (t : Table) : Prop where
  width : t.columns.length = t.schema.columns.length
  nulls : ∀ c ∈ t.columns, c.nulls.length = t.rowCount
  cells : ∀ c ∈ t.columns, c.cells.length = t.rowCount

theorem get_eq {c : Column} {pos : Nat} (hn : pos < c.nulls.length) (hc : pos < c.cells.length) :
    ∃ v, get c pos = .ok v ∧ c.get? pos = some v := by
  have hlen : pos < c.cells.payloads.length := by rwa [Cells.length_payloads]
  rw [get, Column.get?_eq, Cells.get?_eq, List.getElem?_eq_getElem hn,
    List.getElem?_eq_getElem hlen]
  cases c.nulls[pos] with
  | true => exact ⟨.null, rfl, rfl⟩
  | false => exact ⟨_, rfl, rfl⟩

section
variable {t : Table}

theorem shaped_of_lays {rs : List (List Value)} (h : t.Lays rs) : Shaped t := by
  have hreads (c : Column) (hc : c ∈ t.columns) :
      c.nulls.length = t.rowCount ∧ c.cells.length = t.rowCount := by
    obtain ⟨j, hj⟩ := List.mem_iff_getElem?.1 hc
    obtain ⟨d, -, hreads⟩ := h.column hj
    rw [hreads.nulls, hreads.payloads, length_columnOf, h.count]
    exact ⟨rfl, rfl⟩
  exact ⟨h.width, fun c hc => (hreads c hc).1, fun c hc => (hreads c hc).2⟩

theorem Shaped.get_eq (h : Shaped t) {c : Column} (hc : c ∈ t.columns) {pos : Nat}
    (hpos : pos < t.rowCount) : ∃ v, get c pos = .ok v ∧ c.get? pos = some v := by
  apply Strict.get_eq
  · rwa [h.nulls c hc]
  · rwa [h.cells c hc]

theorem valueAt_eq (h : Shaped t) {column pos : Nat} (hcolumn : column < t.schema.columns.length)
    (hpos : pos < t.rowCount) : valueAt t column pos = .ok (t.valueAt column pos) := by
  rw [← h.width] at hcolumn
  obtain ⟨v, hv, hv'⟩ := h.get_eq (List.getElem_mem hcolumn) hpos
  rw [valueAt, demand_getElem? hcolumn, Table.valueAt, List.getElem?_eq_getElem hcolumn,
    Option.bind_some, hv']
  exact hv

theorem row_eq (h : Shaped t) {pos : Nat} (hpos : pos < t.rowCount) :
    ∃ r, row t pos = .ok r ∧ t.row? pos = some r := by
  have hvalues (cs : List Column) (hcs : ∀ c ∈ cs, c ∈ t.columns) :
      ∃ vs, cs.mapM (get · pos) = .ok vs ∧ Table.valuesAt pos cs = some vs := by
    induction cs with
    | nil => exact ⟨[], rfl, rfl⟩
    | cons c cs ih =>
      rw [List.forall_mem_cons] at hcs
      obtain ⟨v, hv, hv'⟩ := h.get_eq hcs.1 hpos
      obtain ⟨vs, hvs, hvs'⟩ := ih hcs.2
      refine ⟨v :: vs, ?_, ?_⟩
      · rw [List.mapM_cons, hv, hvs]
        rfl
      · rw [Table.valuesAt, hv', hvs']
        rfl
  obtain ⟨vs, hvs, hvs'⟩ := hvalues t.columns fun _ hc => hc
  refine ⟨⟨t.schema.names, vs⟩, ?_, ?_⟩
  · rw [row, if_pos hpos, hvs]
    rfl
  · rw [Table.row?, if_pos hpos, hvs']
    rfl

theorem row?_eq (h : Shaped t) (pos : Nat) : row? t pos = .ok (t.row? pos) := by
  unfold row?
  by_cases hpos : pos < t.rowCount
  · obtain ⟨r, hr, hr'⟩ := row_eq h hpos
    rw [if_pos hpos, hr, hr']
    rfl
  · rw [if_neg hpos, Table.row?, if_neg hpos]

theorem rowsAt_eq (h : Shaped t) {positions : List Nat}
    (hpositions : ∀ pos ∈ positions, pos < t.rowCount) :
    rowsAt t positions = .ok (t.rowsAt positions) :=
  mapM_eq_filterMap fun pos hpos => row_eq h (hpositions pos hpos)

theorem rows_eq (h : Shaped t) : rows t = .ok t.rows :=
  rowsAt_eq h fun _ hpos => List.mem_range.1 hpos

theorem predicate_eq (t : Table) (k : Condition) : predicate t k = t.predicate k := by
  unfold predicate Table.predicate
  cases k.column.columnIn? t.name with
  | none => rfl
  | some name =>
    dsimp only
    cases hpos : t.schema.position? name with
    | none => rfl
    | some column =>
      obtain ⟨d, hd, -, hcolumn⟩ := Schema.of_position? hpos
      rw [hcolumn]
      dsimp only
      rw [hd]
      show (d.coerce k.value).bind _ = _
      cases d.coerce k.value <;> rfl

/-- the column of a predicate is one of the schema -/
theorem column_lt_of_predicate {k : Condition} {p : Predicate} (h : t.predicate k = .ok p) :
    p.column < t.schema.columns.length := by
  unfold Table.predicate at h
  split at h
  · cases h
  · split at h
    · rename_i hpos _
      obtain ⟨v, -, rfl⟩ := map_eq_ok_iff.1 h
      exact Schema.lt_of_position? hpos
    · cases h

theorem satisfies_eq (h : Shaped t) {p : Predicate} (hp : p.column < t.schema.columns.length)
    {pos : Nat} (hpos : pos < t.rowCount) : satisfies t p pos = .ok (t.satisfies p pos) := by
  rw [satisfies, valueAt_eq h hp hpos]
  rfl

theorem matching_eq (h : Shaped t) {p : Option Predicate}
    (hp : ∀ q ∈ p, q.column < t.schema.columns.length) : matching t p = .ok (t.matching p) := by
  cases p with
  | none => rfl
  | some p => exact filter_eq fun pos hpos => satisfies_eq h (hp p rfl) (List.mem_range.1 hpos)

theorem lt_of_mem_matching {p : Option Predicate} {pos : Nat} (h : pos ∈ t.matching p) :
    pos < t.rowCount := by
  cases p with
  | none => exact List.mem_range.1 h
  | some p => exact List.mem_range.1 (List.mem_filter.1 h).1

/-- a look at every row -/
theorem rowsAt_matching_eq (h : Shaped t) {p : Predicate}
    (hp : p.column < t.schema.columns.length) :
    (matching t (some p)).bind (rowsAt t) = .ok (t.rowsAt (t.matching (some p))) := by
  have hmatching : matching t (some p) = .ok (t.matching (some p)) := by
    refine matching_eq h ?_
    rintro q ⟨⟩
    exact hp
  rw [hmatching]
  exact rowsAt_eq h fun _ => lt_of_mem_matching

theorem indexFor?_eq {p : Predicate} (hp : p.column < t.schema.columns.length) :
    indexFor? t p = .ok (t.indexFor? p) := by
  unfold indexFor? Table.indexFor?
  by_cases hop : p.op = .equal
  · rw [if_pos hop, if_pos hop, demand_getElem? hp, List.getElem?_eq_getElem hp]
    rfl
  · rw [if_neg hop, if_neg hop]

theorem scan_eq (h : Shaped t) (k : Option Condition) : scan t k = t.scan k := by
  cases k with
  | none => exact rows_eq h
  | some k =>
    rw [scan, Table.scan, predicate_eq]
    cases hp : t.predicate k with
    | error e => rfl
    | ok p => exact rowsAt_matching_eq h (column_lt_of_predicate hp)

theorem find_eq {c : Contents} (h : t.Stores c) (k : Option Condition) : find t k = t.find k := by
  have hshaped := shaped_of_lays h.lays
  cases k with
  | none => exact rows_eq hshaped
  | some k =>
    rw [find, Table.find, predicate_eq]
    cases hp : t.predicate k with
    | error e => rfl
    | ok p =>
      have hcolumn := column_lt_of_predicate hp
      show (indexFor? t p).bind _ = Except.ok _
      rw [indexFor?_eq hcolumn]
      dsimp only [Except.bind]
      cases hi : t.indexFor? p with
      | none => exact rowsAt_matching_eq hshaped hcolumn
      | some i =>
        refine rowsAt_eq hshaped ?_
        rw [h.find_eq_matching hi]
        exact fun _ => lt_of_mem_matching

end

end TableStore.Strict
