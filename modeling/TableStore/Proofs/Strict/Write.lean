import TableStore.Proofs.Strict.Read
import TableStore.Proofs.Table.Calls

/-!
# Changing a table with every access checked

* `Strict.insert`, `update`, `delete`   the changes of a table, failing at any access to a place
                          that is not there;
* `Strict.shaped_assign`  an assignment keeps the shape of a table;
* `Strict.call_eq`        where a table stores rows, the checks make no difference.
-/

namespace TableStore.Strict

/-! ## inserting -/

def place (columns : List String) :
    List (Option Value) → List (String × Value) → Except Error (List (Option Value))
  | given, [] => .ok given
  | given, (name, value) :: pairs =>
    match Row.position? columns name with
    | none => .error (.column (.unknown name))
    | some i => do
      let there ← demand (.columnOutOfBounds i) given[i]?
      if there.isSome then .error (.column (.repeated name))
      else place columns (given.set i (some value)) pairs

def ofPairs (columns : List String) (pairs : List (String × Value)) : Except Error Row :=
  (place columns (columns.map fun _ => none) pairs).map fun given =>
    ⟨columns, given.map (·.getD .null)⟩

/-- the value under a name, if there is such a name -/
def field? (r : Row) (column : String) : Except Error (Option Value) :=
  match Row.position? r.columns column with
  | none => .ok none
  | some i => (demand (.columnOutOfBounds i) r.values[i]?).map some

def lacksKey? (t : Table) (r : Row) : Except Error (Option Error) :=
  match t.schema.primaryKey? with
  | none => .ok none
  | some d => do
    let v ← field? r d.name
    return if (v.getD .null).isNull then some (.constraint d.name .primaryKeyMissing) else none

def accept (t : Table) (pairs : List (String × Value)) : Except Error (List Value) := do
  let r ← ofPairs t.schema.names pairs
  match ← lacksKey? t r with
  | some e => .error e
  | none =>
    let values ← Table.prepareAll t.schema.columns r.values
    match t.taken? t.schema.columns values with
    | some e => .error e
    | none => .ok values

def insert (t : Table) (pairs : List (String × Value)) : Outcome Table Row :=
  match accept t pairs with
  | .error e => .fail e t
  | .ok values => (t.append values).map fun _ => ⟨t.schema.names, values⟩

/-! ## updating -/

def assignments (t : Table) (done : List Assignment) :
    List (String × Value) → Except Error (List Assignment)
  | [] => .ok done
  | (name, v) :: rest =>
    match t.schema.position? name with
    | none => .error (.column (.unknownIn name t.name))
    | some column =>
      if done.any (·.column = column) then .error (.column (.assignedTwice name))
      else do
        let d ← demand (.columnOutOfBounds column) t.schema.columns[column]?
        let w ← d.prepare v
        if d.isPrimaryKey && w.isNull then .error (.constraint d.name .primaryKeyMissing)
        else assignments t (done ++ [⟨column, w⟩]) rest

def conflict? (t : Table) (matched : List Nat) (a : Assignment) : Except Error (Option Error) := do
  let d ← demand (.columnOutOfBounds a.column) t.schema.columns[a.column]?
  if a.value.isNull then return none
  match t.index? d.name with
  | none => return none
  | some i =>
    let olds ← matched.mapM (valueAt t a.column)
    let kept := (i.find a.value).filter (· ∉ matched)
    return if olds.any (· ≠ a.value) && kept.length + matched.length > 1 then
      some (i.duplicate a.value)
    else none

def assign (t : Table) (pos : Nat) (a : Assignment) : Outcome Table Unit :=
  match valueAt t a.column pos with
  | .error e => .fail e t
  | .ok old =>
    if old = a.value then .ok () t
    else
      match t.columns[a.column]?, t.schema.columns[a.column]? with
      | some c, some d =>
        match set c pos a.value with
        | .error e => .fail e t
        | .ok c =>
          let t := { t with columns := t.columns.set a.column c }
          (Table.onIndex d.name (·.move old a.value pos) t.indexes).within fun is =>
            { t with indexes := is }
      | _, _ => .fail (.internal (.columnOutOfBounds a.column)) t

/-- the checked assignments of an update and the positions of its rows -/
def plan (t : Table) (pairs : List (String × Value)) (condition : Option Condition) :
    Except Error (List Assignment × List Nat) := do
  let as ← assignments t [] pairs
  let p ← condition.mapM (predicate t)
  let matched ← matching t p
  match (← as.mapM (conflict? t matched)).findSome? id with
  | some e => .error e
  | none => return (as, matched)

def update (t : Table) (pairs : List (String × Value)) (condition : Option Condition) :
    Outcome Table Nat :=
  match plan t pairs condition with
  | .error e => .fail e t
  | .ok (as, matched) =>
    let row (pos : Nat) (u : Table) := Outcome.forEach (fun a u => assign u pos a) as u
    (Outcome.forEach row matched t).map fun _ => matched.length

/-! ## deleting -/

def removeAll (pos : Nat) : List Column → Outcome (List Column) Unit
  | [] => .ok () []
  | c :: cs =>
    match remove c pos with
    | .ok c => (removeAll pos cs).within (c :: ·)
    | .error e => .fail e (c :: cs)

def removeRow (t : Table) (pos : Nat) : Outcome Table Unit :=
  ((removeAll pos t.columns).within fun cs => { t with columns := cs }).andThen fun _ u =>
    .ok () { u with rowCount := u.rowCount - 1 }

def removeMatching (p : Predicate) : Nat → Table → Outcome Table Nat
  | 0, t => .ok 0 t
  | pos + 1, t =>
    match satisfies t p pos with
    | .error e => .fail e t
    | .ok true => (removeRow t pos).andThen fun _ u => (removeMatching p pos u).map (· + 1)
    | .ok false => removeMatching p pos t

def rebuildAll (t : Table) : List Index → Outcome (List Index) Unit
  | [] => .ok () []
  | i :: is =>
    match t.schema.position? i.column with
    | none => .fail (.internal (.strayIndex i.column)) (i :: is)
    | some column =>
      match (List.range t.rowCount).mapM (valueAt t column) with
      | .error e => .fail e (i :: is)
      | .ok values =>
        let o := i.rebuild values
        match o.answer with
        | .ok () => (rebuildAll t is).within (o.state :: ·)
        | .error e => .fail e (o.state :: is)

def rebuildIndexes (t : Table) : Outcome Table Unit :=
  (rebuildAll t t.indexes).within fun is => { t with indexes := is }

def delete (t : Table) : Option Condition → Outcome Table Nat
  | none => .ok t.rowCount t.clear
  | some k =>
    match predicate t k with
    | .error e => .fail e t
    | .ok p =>
      (removeMatching p t.rowCount t).andThen fun n u =>
        if n > 0 then (rebuildIndexes u).map fun _ => n else .ok n u

def call (t : Table) : Table.Call → Outcome Table Table.Effect
  | .insert pairs => (insert t pairs).map .row
  | .update pairs condition => (update t pairs condition).map .count
  | .delete condition => (delete t condition).map .count

/-! ## rows of named values -/

theorem position?_lt {columns : List String} {name : String} {i : Nat}
    (h : Row.position? columns name = some i) : i < columns.length :=
  (List.findIdx?_eq_some_iff_getElem.1 h).1

theorem place_eq {columns : List String} {given : List (Option Value)}
    (hlen : given.length = columns.length) (pairs : List (String × Value)) :
    place columns given pairs = Row.place columns given pairs := by
  induction pairs generalizing given with
  | nil => rfl
  | cons e pairs ih =>
    obtain ⟨name, value⟩ := e
    rw [place, Row.place]
    cases hi : Row.position? columns name with
    | none => rfl
    | some i =>
      have hlt : i < given.length := by
        rw [hlen]
        exact position?_lt hi
      have hset : (given.set i (some value)).length = columns.length := by
        rw [List.length_set, hlen]
      dsimp only
      rw [demand_getElem? hlt, List.getElem?_eq_getElem hlt, ih hset]
      rfl

theorem ofPairs_eq (columns : List String) (pairs : List (String × Value)) :
    ofPairs columns pairs = Row.ofPairs columns pairs := by
  rw [ofPairs, place_eq (List.length_map _), Row.ofPairs]
  cases Row.place columns (columns.map fun _ => none) pairs <;> rfl

theorem field?_eq {r : Row} (hlen : r.values.length = r.columns.length) (column : String) :
    field? r column = .ok (r.get? column) := by
  unfold field? Row.get?
  cases hi : Row.position? r.columns column with
  | none => rfl
  | some i =>
    have hlt : i < r.values.length := by
      rw [hlen]
      exact position?_lt hi
    dsimp only
    rw [demand_getElem? hlt, Option.bind_some, List.getElem?_eq_getElem hlt]
    rfl

theorem lacksKey?_eq (t : Table) {r : Row} (hlen : r.values.length = r.columns.length) :
    lacksKey? t r = .ok (t.lacksKey? r) := by
  unfold lacksKey? Table.lacksKey?
  cases t.schema.primaryKey? with
  | none => rfl
  | some d =>
    dsimp only
    rw [field?_eq hlen]
    rfl

/-- what has been made of named values has a value for each column -/
theorem accept_eq (t : Table) (pairs : List (String × Value)) :
    accept t pairs = t.accept pairs := by
  unfold accept Table.accept
  rw [ofPairs_eq]
  cases hr : Row.ofPairs t.schema.names pairs with
  | error e => rfl
  | ok r =>
    obtain ⟨hcolumns, hlen⟩ := Row.of_ofPairs hr
    have hkey : lacksKey? t r = .ok (t.lacksKey? r) := lacksKey?_eq t (by rw [hlen, hcolumns])
    show (lacksKey? t r).bind _ = _
    rw [hkey]
    dsimp only [Except.bind]
    cases t.lacksKey? r with
    | some e => rfl
    | none =>
      dsimp only
      cases Table.prepareAll t.schema.columns r.values <;> rfl

theorem insert_eq (t : Table) (pairs : List (String × Value)) :
    insert t pairs = t.insert pairs := by
  rw [insert, accept_eq]
  rfl

/-! ## checked assignments -/

section
variable {t : Table}

theorem assignments_eq (t : Table) (done : List Assignment) (pairs : List (String × Value)) :
    assignments t done pairs = t.assignments done pairs := by
  induction pairs generalizing done with
  | nil => rfl
  | cons e pairs ih =>
    obtain ⟨name, v⟩ := e
    rw [assignments, Table.assignments]
    cases hpos : t.schema.position? name with
    | none => rfl
    | some column =>
      obtain ⟨d, hd, -, hcolumn⟩ := Schema.of_position? hpos
      rw [hcolumn]
      dsimp only
      rw [hd]
      split
      · rfl
      · show (d.prepare v).bind _ = _
        cases d.prepare v with
        | error e => rfl
        | ok w =>
          show (if _ then _ else assignments t _ pairs) = _
          rw [ih]

theorem conflict?_eq (h : Shaped t) {matched : List Nat}
    (hmatched : ∀ pos ∈ matched, pos < t.rowCount) {a : Assignment}
    (ha : a.column < t.schema.columns.length) :
    conflict? t matched a = .ok (t.conflict? matched a) := by
  have holds : matched.mapM (valueAt t a.column) = .ok (matched.map (t.valueAt a.column)) :=
    mapM_eq fun pos hpos => valueAt_eq h ha (hmatched pos hpos)
  unfold conflict? Table.conflict?
  rw [demand_getElem? ha, List.getElem?_eq_getElem ha, Option.bind_some]
  show (if _ then _ else _) = _
  split
  · rfl
  · cases t.index? t.schema.columns[a.column].name with
    | none => rfl
    | some i =>
      dsimp only
      rw [holds]
      show Except.ok (if (matched.map _).any _ && _ then _ else _) = _
      rw [List.any_map]
      rfl

/-! ## assigning -/

theorem set_eq {c : Column} {pos : Nat} (h : pos < c.cells.length) (v : Value) :
    set c pos v = c.set pos v := if_pos h

theorem length_of_set? {c c' : Cells} {pos : Nat} {v : Value} (h : c.set? pos v = some c') :
    c'.length = c.length := by
  unfold Cells.set? at h
  split at h
  case h_4 => cases h
  all_goals
    cases h
    exact List.length_set ..

/-- another value in a row leaves as many bits and payloads -/
theorem length_of_set {c c' : Column} {pos : Nat} {v : Value} (h : c.set pos v = .ok c') :
    c'.nulls.length = c.nulls.length ∧ c'.cells.length = c.cells.length := by
  unfold Column.set at h
  split at h
  · cases h
  · split at h
    · cases h
      exact ⟨List.length_set .., rfl⟩
    · split at h
      · rename_i hcells
        cases h
        exact ⟨List.length_set .., length_of_set? hcells⟩
      · cases h

theorem assign_eq (h : Shaped t) {pos : Nat} (hpos : pos < t.rowCount) {a : Assignment}
    (ha : a.column < t.schema.columns.length) : assign t pos a = t.assign pos a := by
  have hcolumn : a.column < t.columns.length := h.width ▸ ha
  have hcells : pos < t.columns[a.column].cells.length := by
    rwa [h.cells _ (List.getElem_mem hcolumn)]
  unfold assign Table.assign
  rw [valueAt_eq h ha hpos, List.getElem?_eq_getElem hcolumn, List.getElem?_eq_getElem ha]
  dsimp only
  rewrite [set_eq hcells]
  rfl

/-- an assignment keeps the shape of a table -/
theorem shaped_assign (h : Shaped t) (pos : Nat) (a : Assignment) :
    Shaped (t.assign pos a).state ∧ (t.assign pos a).state.schema = t.schema ∧
      (t.assign pos a).state.rowCount = t.rowCount := by
  unfold Table.assign
  dsimp only
  split
  · exact ⟨h, rfl, rfl⟩
  · split
    · rename_i c d hc hd
      split
      · exact ⟨h, rfl, rfl⟩
      · rename_i c' hset
        obtain ⟨hnulls, hcells⟩ := length_of_set hset
        have hmem := List.mem_of_getElem? hc
        refine ⟨⟨(List.length_set ..).trans h.width, fun e he => ?_, fun e he => ?_⟩, rfl, rfl⟩
        · rcases List.mem_or_eq_of_mem_set he with he | rfl
          · exact h.nulls e he
          · exact hnulls.trans (h.nulls c hmem)
        · rcases List.mem_or_eq_of_mem_set he with he | rfl
          · exact h.cells e he
          · exact hcells.trans (h.cells c hmem)
    · exact ⟨h, rfl, rfl⟩

/-- assignments to rows that are there -/
theorem assignAll_eq (h : Shaped t) {as : List Assignment}
    (has : ∀ a ∈ as, a.column < t.schema.columns.length) {matched : List Nat}
    (hmatched : ∀ pos ∈ matched, pos < t.rowCount) :
    Outcome.forEach (fun pos u => Outcome.forEach (fun a u => assign u pos a) as u) matched t
      = Outcome.forEach (fun pos u => Outcome.forEach (fun a u => u.assign pos a) as u)
          matched t := by
  let P (u : Table) : Prop := Shaped u ∧ u.schema = t.schema ∧ u.rowCount = t.rowCount
  refine (Outcome.forEach_congr P (fun pos hpos u hu => ?_) ⟨h, rfl, rfl⟩).1
  refine Outcome.forEach_congr P (fun a ha u ⟨hshaped, hschema, hcount⟩ => ?_) hu
  have hpos' : pos < u.rowCount := hcount ▸ hmatched pos hpos
  have ha' : a.column < u.schema.columns.length := hschema ▸ has a ha
  obtain ⟨hshaped', hschema', hcount'⟩ := shaped_assign hshaped pos a
  exact ⟨assign_eq hshaped hpos' ha', hshaped', hschema'.trans hschema, hcount'.trans hcount⟩

theorem column_lt_of_takes {s : Schema} {a : Assignment} (h : s.Takes a) :
    a.column < s.columns.length := by
  obtain ⟨d, hd, -⟩ := h
  exact (List.getElem?_eq_some_iff.1 hd).1

theorem column_lt_of_mapM {condition : Option Condition} {p : Option Predicate}
    (h : condition.mapM t.predicate = .ok p) : ∀ q ∈ p, q.column < t.schema.columns.length := by
  cases condition with
  | none =>
    cases h
    intro q hq
    cases hq
  | some k =>
    rw [Table.mapM_predicate_some] at h
    obtain ⟨q, hq, rfl⟩ := map_eq_ok_iff.1 h
    rintro q' ⟨⟩
    exact column_lt_of_predicate hq

theorem update_eq (h : Shaped t) (pairs : List (String × Value)) (condition : Option Condition) :
    update t pairs condition = t.update pairs condition := by
  unfold update plan Table.update
  rw [assignments_eq]
  cases has : t.assignments [] pairs with
  | error e => rfl
  | ok as =>
    rw [show predicate t = t.predicate from funext (predicate_eq t)]
    cases hp : condition.mapM t.predicate with
    | error e => rfl
    | ok p =>
      have hcolumns : ∀ a ∈ as, a.column < t.schema.columns.length := fun a ha =>
        column_lt_of_takes (Table.takes_of_assignments has a ha)
      have hmatched : ∀ pos ∈ t.matching p, pos < t.rowCount := fun _ => lt_of_mem_matching
      have hmatching := matching_eq h (column_lt_of_mapM hp)
      have hconflicts : as.mapM (conflict? t (t.matching p))
          = .ok (as.map (t.conflict? (t.matching p))) :=
        mapM_eq fun a ha => conflict?_eq h hmatched (hcolumns a ha)
      simp only [bind, Except.bind, hmatching, hconflicts, List.findSome?_map, Function.id_comp]
      cases as.findSome? (t.conflict? (t.matching p)) with
      | some e => rfl
      | none => exact congrArg (Outcome.map · _) (assignAll_eq h hcolumns hmatched)

/-! ## deleting -/

theorem removeAll_eq {pos : Nat} {cs : List Column} (h : ∀ c ∈ cs, pos < c.cells.length) :
    removeAll pos cs = Table.removeAll pos cs := by
  induction cs with
  | nil => rfl
  | cons c cs ih =>
    rw [List.forall_mem_cons] at h
    rw [removeAll, remove, if_pos h.1, ih h.2]
    rfl

theorem removeRow_eq (h : Shaped t) {pos : Nat} (hpos : pos < t.rowCount) :
    removeRow t pos = t.removeRow pos := by
  rw [removeRow, removeAll_eq fun c hc => by rwa [h.cells c hc]]
  rfl

/-- every row that is looked at is there, also when rows after it are gone -/
theorem removeMatching_eq {rs : List (List Value)} (h : t.Lays rs) {p : Predicate}
    (hp : p.column < t.schema.columns.length) {pos : Nat} (hpos : pos ≤ rs.length) :
    removeMatching p pos t = Table.removeMatching p pos t := by
  induction pos generalizing t rs with
  | zero => rfl
  | succ pos ih =>
    have hshaped := shaped_of_lays h
    have hlt : pos < t.rowCount := by
      rw [h.count]
      exact hpos
    rw [removeMatching, satisfies_eq hshaped hp hlt, Table.removeMatching]
    cases t.satisfies p pos with
    | false => exact ih h hp (Nat.le_of_succ_le hpos)
    | true =>
      obtain ⟨cs, hremove, hlays⟩ := Table.removeRow_ok h hpos
      have hle : pos ≤ (rs.eraseIdx pos).length := by
        rw [List.length_eraseIdx_of_lt hpos]
        omega
      dsimp only
      rw [if_pos rfl, removeRow_eq hshaped hlt, hremove, Outcome.andThen_ok, Outcome.andThen_ok,
        ih hlays hp hle]

theorem rebuildAll_eq (h : Shaped t) (is : List Index) : rebuildAll t is = t.rebuildAll is := by
  induction is with
  | nil => rfl
  | cons i is ih =>
    rw [rebuildAll, Table.rebuildAll]
    cases hpos : t.schema.position? i.column with
    | none => rfl
    | some column =>
      have hcolumn := Schema.lt_of_position? hpos
      have hvalues : (List.range t.rowCount).mapM (valueAt t column)
          = .ok ((List.range t.rowCount).map (t.valueAt column)) :=
        mapM_eq fun pos hpos => valueAt_eq h hcolumn (List.mem_range.1 hpos)
      dsimp only
      rewrite [hvalues, ih]
      rfl

end

section
variable {t : Table} {c : Contents}

theorem delete_eq (h : t.Stores c) (condition : Option Condition) :
    delete t condition = t.delete condition := by
  cases condition with
  | none => rfl
  | some k =>
    rw [delete, Table.delete, predicate_eq]
    cases hp : t.predicate k with
    | error e => rfl
    | ok p =>
      have hcount : t.rowCount ≤ c.rows.length := Nat.le_of_eq h.lays.count
      obtain ⟨cs, n, hremove, hlays⟩ :=
        Table.removeMatching_ok p t.rowCount h.lays h.length_of_mem hcount
      dsimp only
      rw [removeMatching_eq h.lays (column_lt_of_predicate hp) hcount, hremove,
        Outcome.andThen_ok, Outcome.andThen_ok, rebuildIndexes,
        rebuildAll_eq (shaped_of_lays hlays)]
      rfl

/-- where a table stores rows, the checks make no difference to a call -/
theorem call_eq (h : t.Stores c) (k : Table.Call) : call t k = t.call k := by
  cases k with
  | insert pairs => exact congrArg (Outcome.map · _) (insert_eq t pairs)
  | update pairs condition =>
    exact congrArg (Outcome.map · _) (update_eq (shaped_of_lays h.lays) pairs condition)
  | delete condition => exact congrArg (Outcome.map · _) (delete_eq h condition)

end

end TableStore.Strict
