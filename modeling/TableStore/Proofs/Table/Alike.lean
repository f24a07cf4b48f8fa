import TableStore.Proofs.Table.Calls
import TableStore.Proofs.Table.Selection
import TableStore.Query.Result

/-!
# Tables with the same contents

How a table came about leaves traces in it: a cell that was emptied keeps its old payload, and an
index keeps its buckets in the order in which they were made. The traces do not show.

* `Table.SameContents`   the same name, columns and rows;
* `Index.Alike`          indexes that no question tells apart;
* `Table.Alike`          tables that no question tells apart;
* `Stores.alike`         tables with the same contents are alike;
* `Table.DecidedBy`      an outcome that follows from a check and from the contents;
* `Stores.call_alike`    a call answers alike in both, and leaves the same contents.
-/

namespace TableStore

/-- indexes that no question tells apart; their buckets stand in no particular order -/
structure Index.Alike (i i' : Index) : Prop where
  column : i.column = i'.column
  isPrimaryKey : i.isPrimaryKey = i'.isPrimaryKey
  isUnique : i.isUnique = i'.isUnique
  find : ∀ v, i.find v = i'.find v
  has : ∀ v, i.has v = i'.has v
  size : i.size = i'.size
  isEmpty : i.isEmpty = i'.isEmpty
  buckets : i.buckets.Perm i'.buckets

theorem Index.Serves.alike {i i' : Index} {d : ColumnDef} {vs : List Value} (h : i.Serves d vs)
    (h' : i'.Serves d vs) : i.Alike i' := by
  have hclear : i.clear = i'.clear := h.clear.trans h'.clear.symm
  have hperm := h.tracks.perm h'.tracks
  refine ⟨congrArg (·.column) hclear, congrArg (·.isPrimaryKey) hclear,
    congrArg (·.isUnique) hclear, fun v => ?_, fun v => ?_, ?_, hperm.isEmpty_eq, hperm⟩
  · rw [h.tracks.find_eq, h'.tracks.find_eq]
  · rw [Bool.eq_iff_iff, h.tracks.has_iff, h'.tracks.has_iff]
  · rw [h.tracks.size_eq, h'.tracks.size_eq]

/-- alike indexes refuse a value in the same words -/
theorem Index.Alike.duplicate {i i' : Index} (h : i.Alike i') (v : Value) :
    i.duplicate v = i'.duplicate v := by
  unfold Index.duplicate
  rw [h.column, h.isPrimaryKey]

namespace Table

/-- the same name, columns and rows -/
structure SameContents (t u : Table) : Prop where
  name : t.name = u.name
  columns : t.schema.columns = u.schema.columns
  rows : t.rows = u.rows

instance (t u : Table) : Decidable (t.SameContents u) :=
  decidable_of_iff (t.name = u.name ∧ t.schema.columns = u.schema.columns ∧ t.rows = u.rows)
    ⟨fun h => ⟨h.1, h.2.1, h.2.2⟩, fun h => ⟨h.name, h.columns, h.rows⟩⟩

/-- tables that no question tells apart -/
structure Alike (t u : Table) : Prop where
  name : t.name = u.name
  columns : t.schema.columns = u.schema.columns
  rowCount : t.rowCount = u.rowCount
  rows : t.rows = u.rows
  row? : ∀ pos, t.row? pos = u.row? pos
  find : ∀ k, t.find k = u.find k
  scan : ∀ k, t.scan k = u.scan k
  index? : ∀ column, Option.Rel Index.Alike (t.index? column) (u.index? column)

section
variable {t u : Table} {c c' : Contents}

/-! ## what is stored and what shows -/

theorem Stores.sameContents (h : t.Stores c) (h' : u.Stores c) : t.SameContents u := by
  refine ⟨h.name.trans h'.name.symm, ?_, h.rows_eq.trans h'.rows_eq.symm⟩
  rw [h.schema, h'.schema]

/-- what shows of a table is all that it stores -/
theorem Stores.of_sameContents (h : t.Stores c) (h' : u.Stores c') (hsame : t.SameContents u) :
    c = c' := by
  obtain ⟨name, schema, rows⟩ := c
  obtain ⟨name', schema', rows'⟩ := c'
  obtain rfl : name = name' := h.name.symm.trans (hsame.name.trans h'.name)
  obtain rfl : schema = schema' := by
    have hcolumns := hsame.columns
    rw [h.schema, h'.schema] at hcolumns
    exact congrArg Schema.mk hcolumns
  obtain rfl : rows = rows' := by
    have hrows := hsame.rows
    rw [h.rows_eq, h'.rows_eq] at hrows
    exact List.map_injective_iff.2 (fun _ _ he => (Row.mk.inj he).2) hrows
  rfl

/-! ## checks -/

/-- what a condition means depends on the name and the columns only -/
theorem predicate_congr (hname : t.name = u.name) (hschema : t.schema = u.schema) :
    t.predicate = u.predicate := by
  funext k
  unfold predicate
  rw [hname, hschema]

theorem Stores.predicate_eq (h : t.Stores c) (h' : u.Stores c) : t.predicate = u.predicate :=
  predicate_congr (h.name.trans h'.name.symm) (h.schema.trans h'.schema.symm)

/-- and so does what may be assigned -/
theorem assignments_congr (hname : t.name = u.name) (hschema : t.schema = u.schema)
    (done : List Assignment) (pairs : List (String × Value)) :
    t.assignments done pairs = u.assignments done pairs := by
  induction pairs generalizing done with
  | nil => rfl
  | cons e pairs ih =>
    unfold assignments
    simp only [ih]
    rw [hname, hschema]

theorem Stores.assignments_eq (h : t.Stores c) (h' : u.Stores c) (done : List Assignment)
    (pairs : List (String × Value)) : t.assignments done pairs = u.assignments done pairs :=
  assignments_congr (h.name.trans h'.name.symm) (h.schema.trans h'.schema.symm) done pairs

theorem Stores.taken?_eq (h : t.Stores c) (h' : u.Stores c) (ds : List ColumnDef)
    (vs : List Value) : t.taken? ds vs = u.taken? ds vs := by
  induction ds generalizing vs with
  | nil => rfl
  | cons d ds ih =>
    cases vs with
    | nil => rfl
    | cons v vs =>
      unfold taken?
      -- buckets may stand in another order, so the indexes are not equal, only alike
      rcases h.index?_cases h' d.name with ⟨hi, hi'⟩ | ⟨i, i', e, ws, hi, hi', hserves, hserves'⟩
      · simp only [hi, hi', ih]
      · have hsame := hserves.alike hserves'
        simp only [hi, hi', ih, hsame.has, hsame.duplicate]

theorem Stores.accept_eq (h : t.Stores c) (h' : u.Stores c) (pairs : List (String × Value)) :
    t.accept pairs = u.accept pairs := by
  have hschema : t.schema = u.schema := h.schema.trans h'.schema.symm
  have hkey : t.lacksKey? = u.lacksKey? := by
    funext r
    unfold lacksKey?
    rw [hschema]
  unfold accept
  simp only [hschema, hkey, h.taken?_eq h']

theorem Stores.matching_congr (h : t.Stores c) (h' : u.Stores c) : t.matching = u.matching := by
  funext p
  rw [h.matching_eq, h'.matching_eq]

theorem Stores.conflict?_eq (h : t.Stores c) (h' : u.Stores c) (matched : List Nat)
    (a : Assignment) : t.conflict? matched a = u.conflict? matched a := by
  have hvalue : t.valueAt = u.valueAt := by
    funext j pos
    rw [h.valueAt_eq, h'.valueAt_eq]
  unfold conflict?
  rw [h.schema, h'.schema, hvalue]
  cases c.schema.columns[a.column]? with
  | none => rfl
  | some d =>
    rw [Option.bind_some, Option.bind_some]
    rcases h.index?_cases h' d.name with ⟨hi, hi'⟩ | ⟨i, i', e, vs, hi, hi', hserves, hserves'⟩
    · rw [hi, hi']
    · have hsame := hserves.alike hserves'
      simp only [hi, hi', hsame.find, hsame.duplicate]

theorem Stores.plan_eq (h : t.Stores c) (h' : u.Stores c) (pairs : List (String × Value))
    (condition : Option Condition) : t.plan pairs condition = u.plan pairs condition := by
  have hconflict : t.conflict? = u.conflict? := by
    funext matched a
    exact h.conflict?_eq h' matched a
  unfold plan
  rw [h.assignments_eq h', h.predicate_eq h', h.matching_congr h', hconflict]

/-! ## questions -/

theorem Stores.find_congr (h : t.Stores c) (h' : u.Stores c) (k : Option Condition) :
    t.find k = u.find k := by
  rw [h.find_eq, h'.find_eq, h.predicate_eq h']

theorem Stores.resolve?_eq (h : t.Stores c) (h' : u.Stores c) (r : ColumnRef) :
    t.resolve? r = u.resolve? r := by
  unfold resolve?
  rw [h.name, h'.name, h.schema, h'.schema]

theorem Stores.resolveAll_eq (h : t.Stores c) (h' : u.Stores c) (refs : List ColumnRef) :
    t.resolveAll refs = u.resolveAll refs := by
  induction refs with
  | nil => rfl
  | cons r refs ih =>
    unfold resolveAll
    rw [h.resolve?_eq h', ih, h.name, h'.name]

theorem Stores.project_eq (h : t.Stores c) (h' : u.Stores c) (p : Sql.Projection)
    (rows : List Row) : t.project p rows = u.project p rows := by
  unfold project
  rw [h.schema, h'.schema]
  cases p with
  | all => rfl
  | columns refs => simp only [h.resolveAll_eq h']

/-- tables with the same contents are alike -/
theorem Stores.alike (h : t.Stores c) (h' : u.Stores c) : t.Alike u where
  name := (h.sameContents h').name
  columns := (h.sameContents h').columns
  rowCount := h.lays.count.trans h'.lays.count.symm
  rows := (h.sameContents h').rows
  row? pos := by rw [h.row?_eq, h'.row?_eq]
  find := h.find_congr h'
  scan k := by rw [← h.find_eq_scan, ← h'.find_eq_scan, h.find_congr h']
  index? column := by
    rcases h.index?_cases h' column with ⟨hi, hi'⟩ | ⟨i, i', d, vs, hi, hi', hserves, hserves'⟩
    · rw [hi, hi']
      exact .none
    · rw [hi, hi']
      exact .some (hserves.alike hserves')

/-! ## calls -/

/-- an outcome that a check decides: its failure, or an answer and contents that follow from what
it found -/
def DecidedBy {α β : Type} (check : Except Error α) (answer : α → β) (next : α → Contents)
    (t : Table) (o : Outcome Table β) : Prop :=
  (∃ e, check = .error e ∧ o = .fail e t) ∨
    ∃ a w, check = .ok a ∧ o = .ok (answer a) w ∧ w.Stores (next a)

/-- outcomes that the same check decides are alike -/
theorem DecidedBy.alike {α β : Type} {check : Except Error α} {answer : α → β}
    {next : α → Contents} {o o' : Outcome Table β} (ho : DecidedBy check answer next t o)
    (ho' : DecidedBy check answer next u o') (hsame : t.SameContents u) :
    o.Alike Eq SameContents o' := by
  rcases ho with ⟨e, he, rfl⟩ | ⟨a, w, ha, rfl, hw⟩
  · rcases ho' with ⟨e', he', rfl⟩ | ⟨a', w', ha', -⟩
    · obtain rfl : e = e' := Except.error.inj (he.symm.trans he')
      exact Outcome.alike_fail e hsame
    · cases he.symm.trans ha'
  · rcases ho' with ⟨e', he', -⟩ | ⟨a', w', ha', rfl, hw'⟩
    · cases ha.symm.trans he'
    · obtain rfl : a = a' := Except.ok.inj (ha.symm.trans ha')
      exact Outcome.alike_ok rfl (hw.sameContents hw')

theorem Stores.decided_insert (h : t.Stores c) (pairs : List (String × Value)) :
    DecidedBy (t.accept pairs) (fun values => ⟨c.schema.names, values⟩)
      (fun values => { c with rows := c.rows ++ [values] }) t (t.insert pairs) :=
  insert_cases h pairs

theorem Stores.decided_update (h : t.Stores c) (pairs : List (String × Value))
    (condition : Option Condition) :
    DecidedBy (t.plan pairs condition) (fun e => c.rows.countP (selects e.2))
      (fun e => { c with
        rows := c.rows.map fun row => if selects e.2 row then assigned e.1 row else row })
      t (t.update pairs condition) := by
  rcases update_cases h pairs condition with hfail | ⟨as, p, w, hplan, hok, hw⟩
  · exact Or.inl hfail
  · exact Or.inr ⟨(as, p), w, hplan, hok, hw⟩

theorem Stores.decided_delete (h : t.Stores c) (condition : Option Condition) :
    DecidedBy (condition.mapM t.predicate) (fun p => c.rows.countP (selects p))
      (fun p => { c with rows := c.rows.filter (!selects p ·) }) t (t.delete condition) :=
  delete_cases h condition

theorem Stores.insert_alike (h : t.Stores c) (h' : u.Stores c) (pairs : List (String × Value)) :
    (t.insert pairs).Alike Eq SameContents (u.insert pairs) := by
  have hdecided := h'.decided_insert pairs
  rw [← h.accept_eq h'] at hdecided
  exact (h.decided_insert pairs).alike hdecided (h.sameContents h')

theorem Stores.update_alike (h : t.Stores c) (h' : u.Stores c) (pairs : List (String × Value))
    (condition : Option Condition) :
    (t.update pairs condition).Alike Eq SameContents (u.update pairs condition) := by
  have hdecided := h'.decided_update pairs condition
  rw [← h.plan_eq h'] at hdecided
  exact (h.decided_update pairs condition).alike hdecided (h.sameContents h')

theorem Stores.delete_alike (h : t.Stores c) (h' : u.Stores c) (condition : Option Condition) :
    (t.delete condition).Alike Eq SameContents (u.delete condition) := by
  have hdecided := h'.decided_delete condition
  rw [← h.predicate_eq h'] at hdecided
  exact (h.decided_delete condition).alike hdecided (h.sameContents h')

/-- a call answers alike in tables with the same contents, and leaves the same contents -/
theorem Stores.call_alike (h : t.Stores c) (h' : u.Stores c) (k : Call) :
    (t.call k).Alike Eq SameContents (u.call k) := by
  have hcongr {α : Type} (f : α → Effect) (a b : α) (hab : a = b) : f a = f b := congrArg f hab
  cases k with
  | insert pairs => exact (h.insert_alike h' pairs).map (hcongr Effect.row)
  | update pairs condition => exact (h.update_alike h' pairs condition).map (hcongr Effect.count)
  | delete condition => exact (h.delete_alike h' condition).map (hcongr Effect.count)

end

end Table

end TableStore
