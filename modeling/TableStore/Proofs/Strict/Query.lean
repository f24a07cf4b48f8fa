import TableStore.Proofs.Query.Join
import TableStore.Proofs.Strict.Read

/-!
# Queries with every access checked

* `Strict.project`, `ofTables`   a projection and a join, failing at any access to a place that is
                          not there;
* `Strict.project_eq`     the rows of a table have a value for each column that is asked for;
* `Strict.pairs_eq`       the positions in an index are those of rows;
* `Strict.ofTables_eq`    so the checks make no difference to a join.
-/

namespace TableStore.Strict

open Sql

/-! ## projections -/

def pick (positions : List Nat) (values : List Value) : Except Error (List Value) :=
  positions.mapM fun i => demand (.columnOutOfBounds i) values[i]?

def project (t : Table) (p : Projection) (rows : List Row) : Except Error QueryResult :=
  match p with
  | .all => .ok ⟨t.schema.names, rows.map (·.values)⟩
  | .columns refs => do
    let positions ← t.resolveAll refs
    let rows ← rows.mapM fun r => pick positions r.values
    return ⟨refs.map (·.label), rows⟩

/-! ## joins -/

def partners (r : Table) (right : Nat) (rows : List Row) (key : Value) :
    Except Error (List Row) := do
  let d ← demand (.columnOutOfBounds right) r.schema.columns[right]?
  match r.index? d.name with
  | some i => (i.find key).mapM fun pos => demand (.rowOutOfBounds pos) rows[pos]?
  | none =>
    filter (fun row => (demand (.columnOutOfBounds right) row.values[right]?).map (· = key)) rows

/-- the joined rows of one left row -/
def joinedWith (r : Table) (left right : Nat) (type : DataType) (rightRows : List Row) (row : Row) :
    Except Error (List (List Value)) := do
  let v ← demand (.columnOutOfBounds left) row.values[left]?
  match Join.key? type v with
  | none => return []
  | some key =>
    let found ← partners r right rightRows key
    return found.map fun partner => row.values ++ partner.values

def pairs (l r : Table) (left right : Nat) (type : DataType) :
    Except Error (List (List Value)) := do
  let rightRows ← rows r
  let leftRows ← rows l
  let groups ← leftRows.mapM (joinedWith r left right type rightRows)
  return groups.flatten

def filterJoined (y : Layout) (rows : List (List Value)) :
    Option Condition → Except Error (List (List Value))
  | none => .ok rows
  | some k => do
    let i ← y.resolve k.column
    let type ← demand (.columnOutOfBounds i) y.types[i]?
    let label ← demand (.columnOutOfBounds i) y.labels[i]?
    match type.coerce? k.value with
    | none => .error (.type label (.notCoercible k.value type))
    | some v =>
      filter (fun row => (demand (.columnOutOfBounds i) row[i]?).map fun w => k.op.holds w v) rows

def projectJoined (y : Layout) (rows : List (List Value)) : Projection → Except Error QueryResult
  | .all => .ok ⟨y.labels, rows⟩
  | .columns refs => do
    let positions ← y.resolveAll refs
    let rows ← rows.mapM (pick positions)
    return ⟨refs.map (·.label), rows⟩

def ofTables (l r : Table) (q : Select) (j : JoinClause) : Except Error QueryResult :=
  if l.name = r.name then .error (.schema (.selfJoin l.name))
  else do
    let (left, right) ← Join.columns l r j
    let d ← demand (.columnOutOfBounds right) r.schema.columns[right]?
    let y := Layout.ofTables l r
    let joined ← pairs l r left right d.type
    let kept ← filterJoined y joined q.condition
    projectJoined y kept q.projection

/-! ## projected rows -/

theorem pick_eq {positions : List Nat} {values : List Value}
    (h : ∀ i ∈ positions, i < values.length) :
    pick positions values = .ok (TableStore.pick positions values) :=
  mapM_eq fun i hi => by
    rw [demand_getElem? (h i hi), List.getElem?_eq_getElem (h i hi)]
    rfl

theorem lt_of_resolve? {t : Table} {ref : ColumnRef} {i : Nat} (h : t.resolve? ref = some i) :
    i < t.schema.columns.length := by
  obtain ⟨name, -, hpos⟩ := Option.bind_eq_some_iff.1 h
  exact Schema.lt_of_position? hpos

theorem lt_of_resolveAll {t : Table} {refs : List ColumnRef} {positions : List Nat}
    (h : t.resolveAll refs = .ok positions) : ∀ i ∈ positions, i < t.schema.columns.length := by
  induction refs generalizing positions with
  | nil =>
    cases h
    exact List.forall_mem_nil _
  | cons ref refs ih =>
    unfold Table.resolveAll at h
    split at h
    · cases h
    · rename_i i hi
      obtain ⟨is, his, rfl⟩ := map_eq_ok_iff.1 h
      exact List.forall_mem_cons.2 ⟨lt_of_resolve? hi, ih his⟩

/-- rows with a value for each column can be projected -/
theorem project_eq {t : Table} {rows : List Row}
    (hrows : ∀ r ∈ rows, r.values.length = t.schema.columns.length) (p : Projection) :
    project t p rows = t.project p rows := by
  cases p with
  | all => rfl
  | columns refs =>
    unfold project Table.project
    dsimp only
    cases hpositions : t.resolveAll refs with
    | error e => rfl
    | ok positions =>
      have hmapM : (rows.mapM fun r => pick positions r.values)
          = .ok (rows.map fun r => TableStore.pick positions r.values) :=
        mapM_eq fun r hr => pick_eq fun i hi => by
          rw [hrows r hr]
          exact lt_of_resolveAll hpositions i hi
      dsimp only [bind, Except.bind]
      rw [hmapM]
      rfl

/-! ## joined rows -/

section
variable {l r : Table} {cl cr : Contents} {left right : Nat}

theorem partners_eq (h : r.Stores cr) (hright : right < r.schema.columns.length) (key : Value) :
    partners r right r.rows key = .ok (Join.partners r right r.rows key) := by
  unfold partners Join.partners
  rw [demand_getElem? hright, List.getElem?_eq_getElem hright, Option.bind_some]
  dsimp only [bind, Except.bind]
  cases hi : r.index? r.schema.columns[right].name with
  | none =>
    refine filter_eq fun row hrow => ?_
    have hlt : right < row.values.length := by rwa [h.length_values hrow]
    rw [demand_getElem? hlt, List.getElem?_eq_getElem hlt]
    exact congrArg Except.ok (decide_eq_decide.2 Option.some_inj.symm)
  | some i =>
    refine mapM_eq_filterMap fun pos hpos => ?_
    have hd : cr.schema.columns[right]? = some r.schema.columns[right] := by
      rw [← h.schema, List.getElem?_eq_getElem hright]
    rw [(h.serves hd hi).tracks.mem] at hpos
    have hlt : pos < r.rows.length := by
      have hcolumn := (List.getElem?_eq_some_iff.1 hpos).1
      rw [length_columnOf] at hcolumn
      rwa [h.rows_eq, List.length_map]
    exact ⟨r.rows[pos], demand_getElem? hlt, List.getElem?_eq_getElem hlt⟩

theorem pairs_eq (hl : l.Stores cl) (hr : r.Stores cr) (hleft : left < l.schema.columns.length)
    (hright : right < r.schema.columns.length) (type : DataType) :
    pairs l r left right type = .ok (Join.pairs l r left right type) := by
  have hjoined (row : Row) (hrow : row ∈ l.rows) :
      joinedWith r left right type r.rows row
        = .ok (match (row.values[left]?).bind (Join.key? type) with
          | none => []
          | some key => (Join.partners r right r.rows key).map fun partner =>
            row.values ++ partner.values) := by
    have hlt : left < row.values.length := by rwa [hl.length_values hrow]
    unfold joinedWith
    rw [demand_getElem? hlt, List.getElem?_eq_getElem hlt, Option.bind_some]
    dsimp only [bind, Except.bind]
    cases Join.key? type row.values[left] with
    | none => rfl
    | some key =>
      dsimp only
      rw [partners_eq hr hright]
      rfl
  unfold pairs Join.pairs
  rw [rows_eq (shaped_of_lays hl.lays), rows_eq (shaped_of_lays hr.lays)]
  dsimp only [bind, Except.bind]
  rw [mapM_eq hjoined]
  rfl

theorem mem_of_mem_partners {rows : List Row} {key : Value} {partner : Row}
    (h : partner ∈ Join.partners r right rows key) : partner ∈ rows := by
  unfold Join.partners at h
  split at h
  · obtain ⟨pos, -, hpos⟩ := List.mem_filterMap.1 h
    exact List.mem_of_getElem? hpos
  · exact (List.mem_filter.1 h).1

/-- a joined row has a value for each column of both tables -/
theorem length_of_mem_pairs (hl : l.Stores cl) (hr : r.Stores cr) {type : DataType}
    {values : List Value} (h : values ∈ Join.pairs l r left right type) :
    values.length = l.schema.columns.length + r.schema.columns.length := by
  obtain ⟨row, hrow, h⟩ := List.mem_flatMap.1 h
  split at h
  · cases h
  · obtain ⟨partner, hpartner, rfl⟩ := List.mem_map.1 h
    rw [List.length_append, hl.length_values hrow, hr.length_values (mem_of_mem_partners hpartner)]

end

/-! ## fields of joined rows -/

section
variable {y : Layout}

theorem lt_of_position? {label : String} {i : Nat} (h : y.position? label = some i) :
    i < y.labels.length :=
  (List.findIdx?_eq_some_iff_getElem.1 h).1

theorem lt_of_resolve {ref : ColumnRef} {i : Nat} (h : y.resolve ref = .ok i) :
    i < y.labels.length := by
  unfold Layout.resolve at h
  split at h
  · rename_i k hk
    cases h
    unfold Layout.resolve? at hk
    split at hk
    · exact lt_of_position? hk
    · rcases Option.or_eq_some_iff.1 hk with hk | ⟨-, hk⟩
      · exact lt_of_position? hk
      · rcases Option.or_eq_some_iff.1 hk with hk | ⟨-, hk⟩
        · exact lt_of_position? hk
        · exact lt_of_position? hk
  · cases h

theorem lt_of_layout_resolveAll {refs : List ColumnRef} {positions : List Nat}
    (h : y.resolveAll refs = .ok positions) : ∀ i ∈ positions, i < y.labels.length := by
  induction refs generalizing positions with
  | nil =>
    cases h
    exact List.forall_mem_nil _
  | cons ref refs ih =>
    unfold Layout.resolveAll at h
    split at h
    · cases h
    · rename_i i hi
      obtain ⟨is, his, rfl⟩ := map_eq_ok_iff.1 h
      exact List.forall_mem_cons.2 ⟨lt_of_resolve hi, ih his⟩

variable {rows : List (List Value)}

theorem filterJoined_eq (htypes : y.types.length = y.labels.length)
    (hrows : ∀ row ∈ rows, row.length = y.labels.length) (condition : Option Condition) :
    filterJoined y rows condition = Join.filter y rows condition := by
  cases condition with
  | none => rfl
  | some k =>
    unfold filterJoined Join.filter
    dsimp only
    cases hi : y.resolve k.column with
    | error e => rfl
    | ok i =>
      have hlabel := lt_of_resolve hi
      have htype : i < y.types.length := htypes ▸ hlabel
      dsimp only [bind, Except.bind]
      rw [demand_getElem? htype, demand_getElem? hlabel, List.getElem?_eq_getElem htype,
        List.getElem?_eq_getElem hlabel]
      dsimp only
      cases y.types[i].coerce? k.value with
      | none => rfl
      | some v =>
        refine filter_eq fun row hrow => ?_
        have hlt : i < row.length := by rwa [hrows row hrow]
        rw [demand_getElem? hlt, List.getElem?_eq_getElem hlt]
        rfl

theorem mem_of_mem_filter {condition : Option Condition} {kept : List (List Value)}
    (h : Join.filter y rows condition = .ok kept) {row : List Value} (hrow : row ∈ kept) :
    row ∈ rows := by
  unfold Join.filter at h
  split at h
  · cases h
    exact hrow
  · split at h
    · cases h
    · split at h
      · split at h
        · cases h
        · cases h
          exact (List.mem_filter.1 hrow).1
      · cases h

theorem projectJoined_eq (hrows : ∀ row ∈ rows, row.length = y.labels.length) (p : Projection) :
    projectJoined y rows p = Join.project y rows p := by
  cases p with
  | all => rfl
  | columns refs =>
    unfold projectJoined Join.project
    dsimp only
    cases hpositions : y.resolveAll refs with
    | error e => rfl
    | ok positions =>
      have hmapM : rows.mapM (pick positions) = .ok (rows.map (TableStore.pick positions)) :=
        mapM_eq fun row hrow => pick_eq fun i hi => by
          rw [hrows row hrow]
          exact lt_of_layout_resolveAll hpositions i hi
      dsimp only [bind, Except.bind]
      rw [hmapM]
      rfl

end

/-! ## whole joins -/

theorem length_labels (l r : Table) : (Layout.ofTables l r).labels.length
    = l.schema.columns.length + r.schema.columns.length := by
  unfold Layout.ofTables
  rw [List.length_append, List.length_map, List.length_map]

theorem length_types (l r : Table) : (Layout.ofTables l r).types.length
    = l.schema.columns.length + r.schema.columns.length := by
  unfold Layout.ofTables
  rw [List.length_map, List.length_append]

/-- the columns that are compared are columns of their tables -/
theorem lt_of_columns {l r : Table} {j : JoinClause} {left right : Nat}
    (h : Join.columns l r j = .ok (left, right)) :
    left < l.schema.columns.length ∧ right < r.schema.columns.length := by
  rcases Join.columns_cases l r j with ⟨hnone, -⟩ | ⟨i, k, dl, dr, hsome, hdl, hdr, -⟩
  · rw [hnone] at h
    cases h
  · rw [hsome] at h
    cases h
    exact ⟨(List.getElem?_eq_some_iff.1 hdl).1, (List.getElem?_eq_some_iff.1 hdr).1⟩

/-- where both tables store rows, the checks make no difference to a join -/
theorem ofTables_eq {l r : Table} {cl cr : Contents} (hl : l.Stores cl) (hr : r.Stores cr)
    (q : Select) (j : JoinClause) : ofTables l r q j = Join.ofTables l r q j := by
  unfold ofTables Join.ofTables
  split
  · rfl
  · cases hcolumns : Join.columns l r j with
    | error e => rfl
    | ok sides =>
      obtain ⟨left, right⟩ := sides
      obtain ⟨hleft, hright⟩ := lt_of_columns hcolumns
      have hrows (row : List Value)
          (hrow : row ∈ Join.pairs l r left right r.schema.columns[right].type) :
          row.length = (Layout.ofTables l r).labels.length := by
        rw [length_labels]
        exact length_of_mem_pairs hl hr hrow
      dsimp only [bind, Except.bind]
      rw [demand_getElem? hright, List.getElem?_eq_getElem hright]
      dsimp only
      rw [pairs_eq hl hr hleft hright]
      dsimp only
      rw [filterJoined_eq ((length_types l r).trans (length_labels l r).symm) hrows]
      cases hkept : Join.filter (Layout.ofTables l r)
          (Join.pairs l r left right r.schema.columns[right].type) q.condition with
      | error e => rfl
      | ok kept =>
        exact projectJoined_eq (fun row hrow => hrows row (mem_of_mem_filter hkept hrow)) _

end TableStore.Strict
