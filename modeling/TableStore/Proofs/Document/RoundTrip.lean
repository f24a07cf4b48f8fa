import TableStore.Proofs.Document.Consistent

/-!
# Loading what was saved

* `Table.Agrees`, `Database.Agrees`   the same columns, rows and positions, in tables of the same
                                      names;
* `Stores.agrees`                     tables with the same contents agree, however they came about;
* `Stores.consistent`                 the document of a table can be loaded, and describes what the
                                      table stores;
* `Database.Addressable`              every row has a position that fits a word;
* `Database.ofText_text`              the text of a database loads, and gives one that agrees.
-/

namespace TableStore

/-! ## what two databases have in common -/

/-- tables that show the same -/
structure Table.Agrees (t u : Table) : Prop where
  name : u.name = t.name
  columns : u.schema.columns = t.schema.columns
  rows : u.rows = t.rows
  positions : ∀ column v,
    (u.index? column).map (·.find v) = (t.index? column).map (·.find v)

/-- databases whose tables show the same -/
structure Database.Agrees (db db' : Database) : Prop where
  name : db'.name = db.name
  tableNames : db'.tableNames = db.tableNames
  tables : ∀ name t, db.table? name = some t → ∃ u, db'.table? name = some u ∧ t.Agrees u

/-- the positions of all rows are words, as those of rows in memory are -/
def Database.Addressable (db : Database) : Prop := ∀ e ∈ db.tables, e.2.rowCount ≤ UInt64.size

namespace Table

section
variable {t u : Table} {c : Contents}

/-- tables with the same contents agree -/
theorem Stores.agrees (h : t.Stores c) (h' : u.Stores c) : t.Agrees u := by
  refine ⟨h'.name.trans h.name.symm, ?_, h'.rows_eq.trans h.rows_eq.symm, fun column v => ?_⟩
  · rw [h.schema, h'.schema]
  · rcases h.index?_cases h' column with ⟨hi, hi'⟩ | ⟨i, i', d, vs, hi, hi', hserves, hserves'⟩
    · rw [hi, hi']
    · rw [hi, hi', Option.map_some, Option.map_some, hserves.tracks.find_eq,
        hserves'.tracks.find_eq]

/-! ## the document of a table -/

theorem ordered_ofIndex {i : Index} {vs : List Value} (h : i.Tracks vs)
    (hsize : vs.length ≤ UInt64.size) : (IndexDocument.ofIndex i).Ordered := by
  refine ⟨List.pairwise_map.2 (Keyed.ascending_ofList _), fun e he n hn => ?_⟩
  obtain ⟨f, hf, rfl⟩ := List.mem_map.1 he
  obtain ⟨b, hb, rfl⟩ := List.mem_map.1 (Keyed.mem_of_mem_ofList hf)
  have hfind : n ∈ i.find b.1 := (Index.mem_bucket_iff h.sound).1 ⟨b, hb, rfl, hn⟩
  rw [h.mem] at hfind
  exact Nat.lt_of_lt_of_le (List.getElem?_eq_some_iff.1 hfind).1 hsize

theorem Stores.ordered (h : t.Stores c) (hsize : t.rowCount ≤ UInt64.size) :
    (TableDocument.ofTable t).Ordered := by
  refine ⟨List.pairwise_map.2 (Keyed.ascending_ofList _), fun e he => ?_⟩
  obtain ⟨f, hf, rfl⟩ := List.mem_map.1 he
  obtain ⟨i, hi, rfl⟩ := List.mem_map.1 (Keyed.mem_of_mem_ofList hf)
  obtain ⟨j, d, -, hserves⟩ := h.indexed.serves i hi
  refine ordered_ofIndex hserves.tracks ?_
  rw [length_columnOf, ← h.lays.count]
  exact hsize

end

end Table

/-! ## the rows of a document that was written -/

namespace Schema

variable {s : Schema} {row : List Value}

/-- a row that was written gives every column its value -/
theorem valueIn?_zip (hv : s.Valid) (hrow : s.Fits row) {j : Nat} {d : ColumnDef} {v : Value}
    (hd : s.columns[j]? = some d) (hw : row[j]? = some v) :
    d.valueIn? (Keyed.ofList (s.names.zip row)) = some v := by
  have hlen : s.names.length = row.length := (List.length_map _).trans hrow.length.symm
  unfold ColumnDef.valueIn?
  rw [Keyed.lookup_ofList (Keyed.keys_zip hv.names hlen),
    Keyed.lookup_zip hv.names hlen (getElem?_names hd) hw]
  exact coerce?_of_holds (hrow.typed j d v hd hw)

/-- a row that was written stands for itself -/
theorem valuesOf_zip (hv : s.Valid) (hrow : s.Fits row) :
    s.valuesOf (Keyed.ofList (s.names.zip row)) = row := by
  refine List.ext_getElem? fun j => ?_
  cases hd : s.columns[j]? with
  | none =>
    have hj : row.length ≤ j := hrow.length ▸ List.getElem?_eq_none_iff.1 hd
    unfold valuesOf
    rw [List.getElem?_map, hd, List.getElem?_eq_none hj]
    rfl
  | some d =>
    have hw := List.getElem?_eq_getElem (hrow.lt_length hd)
    rw [getElem?_valuesOf hd, valueIn?_zip hv hrow hd hw, hw]
    rfl

theorem reads_zip (hv : s.Valid) (hrow : s.Fits row) :
    s.Reads (Keyed.ofList (s.names.zip row)) := by
  refine ⟨fun e he => (List.of_mem_zip (Keyed.mem_of_mem_ofList he)).1, fun d hd => ?_⟩
  obtain ⟨j, hj⟩ := List.mem_iff_getElem?.1 hd
  rw [valueIn?_zip hv hrow hj (List.getElem?_eq_getElem (hrow.lt_length hj))]
  rfl

end Schema

/-- the document of a table can be loaded, and describes what the table stores -/
theorem Table.Stores.consistent {t : Table} {c : Contents} (h : t.Stores c) :
    (TableDocument.ofTable t).sorted.Consistent c.name ∧
      (TableDocument.ofTable t).sorted.contents = c := by
  have hschema : (TableDocument.ofTable t).sorted.schema = c.schema := h.schema
  have hrows : (TableDocument.ofTable t).sorted.rows
      = c.rows.map fun row => Keyed.ofList (c.schema.names.zip row) := by
    show (t.rows.map Row.pairs).map Keyed.ofList = _
    rw [h.rows_eq, List.map_map, List.map_map]
    rfl
  have hvalues : (c.rows.map fun row => Keyed.ofList (c.schema.names.zip row)).map
      c.schema.valuesOf = c.rows := by
    rw [List.map_map]
    exact (List.map_congr_left fun row hrow =>
      Schema.valuesOf_zip h.valid (h.admits.fits row hrow)).trans (List.map_id _)
  constructor
  · refine ⟨h.name.symm, hschema ▸ h.valid, ?_⟩
    rw [hschema, hrows, Schema.lawful_iff, hvalues]
    · refine ⟨fun r hr => ?_, h.admits⟩
      obtain ⟨row, hrow, rfl⟩ := List.mem_map.1 hr
      exact Schema.reads_zip h.valid (h.admits.fits row hrow)
    · intro r hr
      obtain ⟨row, -, rfl⟩ := List.mem_map.1 hr
      exact (Keyed.ascending_ofList _).nodup
  · unfold TableDocument.contents
    rw [hschema, hrows, hvalues, show (TableDocument.ofTable t).sorted.name = c.name from h.name]

namespace Database

variable {db : Database}

/-! ## the document of a database -/

theorem Sound.ordered (h : db.Sound) (hsize : db.Addressable) :
    (Document.ofDatabase db).Ordered := by
  refine ⟨List.pairwise_map.2 (Keyed.ascending_ofList _), fun e he => ?_⟩
  obtain ⟨f, hf, rfl⟩ := List.mem_map.1 he
  have hmem := Keyed.mem_of_mem_ofList hf
  obtain ⟨c, hstores, -⟩ := h.tables f hmem
  exact hstores.ordered (hsize f hmem)

/-! ## the round trip -/

/-- the text of a database can be loaded, and gives tables with the same contents in the order of
their names -/
theorem Sound.reload (h : db.Sound) (hsize : db.Addressable) :
    ∃ loaded, ofText db.text = .ok ⟨db.name, loaded⟩ ∧
      List.Forall₂ (fun e f => f.1 = e.1 ∧ ∃ c, e.2.Stores c ∧ f.2.Stores c) db.sorted loaded := by
  have hread : Document.ofText? db.text = some (Document.ofDatabase db).sorted :=
    Document.ofText?_pretty (h.ordered hsize)
  have htables : (Document.ofDatabase db).sorted.tables
      = db.sorted.map fun e => (e.1, (TableDocument.ofTable e.2).sorted) := List.map_map
  have hstores (e : String × Table) (he : e ∈ db.sorted) : ∃ c, e.2.Stores c ∧ c.name = e.1 :=
    h.tables e (Keyed.mem_of_mem_ofList he)
  have hconsistent : (Document.ofDatabase db).sorted.Consistent := by
    unfold Document.Consistent
    rw [htables, List.forall_mem_map]
    intro e he
    obtain ⟨c, hc, hname⟩ := hstores e he
    rw [← hname]
    exact hc.consistent.1
  rcases Document.toDatabase_cases (Document.readable_of_ofText? hread) with
    ⟨-, loaded, hload, hheld⟩ | ⟨reason, hfault, -⟩
  · refine ⟨loaded, ?_, ?_⟩
    · unfold ofText
      rw [hread]
      exact hload
    · rw [htables, List.forall₂_map_left_iff] at hheld
      refine ((List.forall₂_and_left _ _).2 ⟨hstores, hheld⟩).imp fun e f hef => ?_
      obtain ⟨⟨c, hc, -⟩, hkey, hf⟩ := hef
      rw [hc.consistent.2] at hf
      exact ⟨hkey, c, hc, hf⟩
  · exact absurd hconsistent hfault.not_consistent

/-- the text of a database that can be reached can be loaded, and gives one that agrees with it -/
theorem ofText_text (h : db.Reachable) (hsize : db.Addressable) :
    ∃ db', ofText db.text = .ok db' ∧ db.Agrees db' := by
  obtain ⟨loaded, hload, hheld⟩ := h.sound.reload hsize
  have hnames : loaded.map (·.1) = db.sorted.map (·.1) :=
    Keyed.keys_eq_of_forall₂ (hheld.imp fun _ _ hef => hef.1)
  have hascending : Keyed.Ascending loaded := by
    rw [Keyed.ascending_iff, hnames]
    exact Keyed.ascending_iff.1 (Keyed.ascending_ofList _)
  refine ⟨⟨db.name, loaded⟩, hload, rfl, ?_, fun name t ht => ?_⟩
  · show (Keyed.ofList loaded).map (·.1) = _
    rw [Keyed.ofList_of_ascending hascending, hnames]
    rfl
  · have hrel := Keyed.lookup_rel (R := fun t u : Table => ∃ c, t.Stores c ∧ u.Stores c) hheld name
    rw [h.sound.lookup_sorted, ht] at hrel
    rcases optionRel_cases hrel with ⟨hnone, -⟩ | ⟨t', u, ht', hu, c, hc, hc'⟩
    · cases hnone
    · cases ht'
      exact ⟨u, hu, hc.agrees hc'⟩

theorem ofText_text_users : ∃ db, ofText users.text = .ok db ∧ users.Agrees db := by
  have hsize : ∀ e ∈ users.tables, e.2.rowCount ≤ UInt64.size := by decide +kernel
  exact ofText_text reachable_users hsize

end Database

end TableStore
