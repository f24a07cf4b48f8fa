import TableStore.Proofs.Database.Alike
import TableStore.Proofs.Document.RoundTrip

/-!
# One text for the same contents, and for no others

A text gives back the tree that was printed, a tree the document, and a document the contents. The
other way round, a text depends on the contents alone, not on the order in which tables and buckets
happen to stand.

* `Json.pretty_injective`       different trees have different texts;
* `TableDocument.eq_of_toJson`  the tree of a table gives back its name, columns and rows;
* `Stores.sameContents_of_toJson`, `Sound.sameContents_of_text`
                                so a table is known by its tree, and a database by its text;
* `Database.Rearranged`         the same database, its tables and buckets in any order;
* `Rearranged.twins`            it has the same contents;
* `Sound.reload_twins`          and so has what is loaded from its text;
* `Database.text_faithful`      the text stands for the contents, and is what is written again after
                                it was loaded.
-/

namespace TableStore

/-! ## trees -/

namespace Json

/-- different trees have different texts -/
theorem pretty_injective : Function.Injective pretty := by
  intro j k h
  have hread : some j = some k := by rw [← read?_pretty j, ← read?_pretty k, h]
  exact Option.some.inj hread

theorem ofValue_injective : Function.Injective ofValue := by
  intro v w h
  have hvalue : some v = some w := by rw [← value?_ofValue v, ← value?_ofValue w, h]
  exact Option.some.inj hvalue

theorem ofPairs_injective : Function.Injective ofPairs := by
  intro ps qs h
  refine List.map_injective_iff.2 (fun e f hef => ?_) (Json.object.inj h)
  obtain ⟨hname, hvalue⟩ := Prod.mk.inj hef
  exact Prod.ext hname (ofValue_injective hvalue)

end Json

theorem ColumnDef.toJson_injective : Function.Injective toJson := by
  intro d e h
  have hdef : some d = some e := by rw [← ofJson?_toJson d, ← ofJson?_toJson e, h]
  exact Option.some.inj hdef

/-- the tree of a table gives back its name, columns and rows -/
theorem TableDocument.eq_of_toJson {d e : TableDocument} (h : d.toJson = e.toJson) :
    d.name = e.name ∧ d.columns = e.columns ∧ d.rows = e.rows := by
  unfold toJson at h
  simp only [Json.object.injEq, List.cons.injEq, Prod.mk.injEq, Json.string.injEq,
    Json.array.injEq, true_and] at h
  obtain ⟨hname, hcolumns, hrows, -⟩ := h
  exact ⟨hname, ColumnDef.toJson_injective.list_map hcolumns,
    Json.ofPairs_injective.list_map hrows⟩

/-- the tree of a document gives back its name, and the trees of its tables -/
theorem Document.eq_of_toJson {d e : Document} (h : d.toJson = e.toJson) :
    d.name = e.name ∧ (d.tables.map fun t => (t.1, t.2.toJson))
      = e.tables.map fun t => (t.1, t.2.toJson) := by
  unfold toJson at h
  simp only [Json.object.injEq, List.cons.injEq, Prod.mk.injEq, Json.string.injEq, true_and,
    and_true] at h
  exact h

/-! ## tables -/

/-- rows under the same columns are known by their named values -/
theorem map_pairs_inj {names : List String} {rows rows' : List (List Value)}
    (hlen : ∀ row ∈ rows, row.length = names.length)
    (hlen' : ∀ row ∈ rows', row.length = names.length)
    (h : rows.map (names.zip ·) = rows'.map (names.zip ·)) : rows = rows' := by
  have hsnd {rs : List (List Value)} (hrs : ∀ row ∈ rs, row.length = names.length) :
      (rs.map (names.zip ·)).map (List.map (·.2)) = rs := by
    rw [List.map_map]
    refine (List.map_congr_left fun row hrow => ?_).trans (List.map_id rs)
    exact List.map_snd_zip (Nat.le_of_eq (hrs row hrow))
  rw [← hsnd hlen, h, hsnd hlen']

/-- tables of the same tree have the same contents -/
theorem Table.Stores.sameContents_of_toJson {t u : Table} {c c' : Contents} (h : t.Stores c)
    (h' : u.Stores c') (htree : (TableDocument.ofTable t).toJson = (TableDocument.ofTable u).toJson) :
    t.SameContents u := by
  obtain ⟨hname, hcolumns, hrows⟩ := TableDocument.eq_of_toJson htree
  have hschema : c.schema = c'.schema := by
    rw [← h.schema, ← h'.schema]
    exact congrArg Schema.mk hcolumns
  have hwidth {w : Table} {k : Contents} (hw : w.Stores k) :
      ∀ row ∈ k.rows, row.length = k.schema.names.length := by
    intro row hrow
    rw [(hw.admits.fits row hrow).length]
    exact (List.length_map _).symm
  have hpairs {w : Table} {k : Contents} (hw : w.Stores k) :
      (TableDocument.ofTable w).rows = k.rows.map (k.schema.names.zip ·) := by
    show w.rows.map Row.pairs = _
    rw [hw.rows_eq, List.map_map]
    rfl
  have hsame : c.rows = c'.rows := by
    have hwidth' := hwidth h'
    rw [hpairs h, hpairs h', ← hschema] at hrows
    rw [← hschema] at hwidth'
    exact map_pairs_inj (hwidth h) hwidth' hrows
  refine ⟨hname, hcolumns, ?_⟩
  rw [h.rows_eq, h'.rows_eq, hschema, hsame]

/-! ## databases -/

namespace Database

variable {db db' : Database}

/-- a database is known by its text -/
theorem Sound.sameContents_of_text (h : db.Sound) (h' : db'.Sound) (htext : db.text = db'.text) :
    db.SameContents db' := by
  obtain ⟨hname, htables⟩ := Document.eq_of_toJson (Json.pretty_injective htext)
  refine ⟨hname, fun name => ?_⟩
  have htree {e : Database} (he : e.Sound) :
      ((Document.ofDatabase e).tables.map fun t => (t.1, t.2.toJson)).lookup name
        = (e.table? name).map fun t => (TableDocument.ofTable t).toJson := by
    rw [Keyed.lookup_map_snd, he.lookup_ofDatabase, Option.map_map]
    rfl
  have hlookup := htree h
  rw [htables, htree h'] at hlookup
  cases ht : db.table? name with
  | none =>
    rw [ht] at hlookup
    rw [Option.map_eq_none_iff.1 hlookup]
    exact .none
  | some t =>
    rw [ht] at hlookup
    obtain ⟨u, hu, htree'⟩ := Option.map_eq_some_iff.1 hlookup
    obtain ⟨c, hc, -⟩ := h.stores ht
    obtain ⟨c', hc', -⟩ := h'.stores hu
    rw [hu]
    exact .some (hc.sameContents_of_toJson hc' htree'.symm)

end Database

/-! ## the order in which things happen to stand -/

/-- the same index, its buckets in any order -/
structure Index.Rearranged (i i' : Index) : Prop where
  clear : i'.clear = i.clear
  buckets : i.buckets.Perm i'.buckets

/-- the same table, the buckets of its indexes in any order -/
structure Table.Rearranged (t u : Table) : Prop where
  name : u.name = t.name
  schema : u.schema = t.schema
  columns : u.columns = t.columns
  rowCount : u.rowCount = t.rowCount
  indexes : List.Forall₂ Index.Rearranged t.indexes u.indexes

/-- the same database, its tables and the buckets of their indexes in any order -/
structure Database.Rearranged (db db' : Database) : Prop where
  name : db'.name = db.name
  tables : ∃ es, db.tables.Perm es ∧
    List.Forall₂ (fun e f => f.1 = e.1 ∧ e.2.Rearranged f.2) es db'.tables

namespace Index

variable {i i' : Index} {vs : List Value}

theorem Rearranged.column (h : i.Rearranged i') : i'.column = i.column :=
  congrArg (·.column) h.clear

theorem Tracks.rearranged (h : i.Tracks vs) (hi : i.Rearranged i') : i'.Tracks vs := by
  have hfind (v : Value) : i'.find v = i.find v := by
    unfold find
    rw [Keyed.lookup_perm hi.buckets h.sound.keys]
  refine ⟨⟨?_, fun b hb => ?_, fun b hb => ?_⟩, fun v pos => ?_⟩
  · exact (hi.buckets.map (·.1)).nodup_iff.1 h.sound.keys
  · exact h.sound.filled b (hi.buckets.mem_iff.2 hb)
  · exact h.sound.ascending b (hi.buckets.mem_iff.2 hb)
  · rw [hfind, h.mem]

theorem Serves.rearranged {d : ColumnDef} (h : i.Serves d vs) (hi : i.Rearranged i') :
    i'.Serves d vs := ⟨hi.clear.trans h.clear, h.tracks.rearranged hi⟩

end Index

namespace Table

variable {t u : Table} {c : Contents}

theorem Indexed.rearranged {s : Schema} {is js : List Index} {vs : Nat → List Value}
    (h : Indexed s is vs) (hi : List.Forall₂ Index.Rearranged is js) : Indexed s js vs := by
  have hnames : js.map (·.column) = is.map (·.column) :=
    Keyed.map_eq_of_forall₂ (fun _ _ hij => hij.column) hi
  refine ⟨hnames.trans h.names, fun j hj => ?_⟩
  obtain ⟨i, hmem, hij⟩ := Keyed.exists_of_mem_forall₂ hi hj
  obtain ⟨k, d, hd, hserves⟩ := h.serves i hmem
  exact ⟨k, d, hd, hserves.rearranged hij⟩

theorem Stores.rearranged (h : t.Stores c) (hu : t.Rearranged u) : u.Stores c where
  name := hu.name.trans h.name
  schema := hu.schema.trans h.schema
  valid := h.valid
  admits := h.admits
  lays := by
    refine ⟨hu.rowCount.trans h.lays.count, ?_, fun j d k hd hk => ?_⟩
    · rw [hu.columns, hu.schema, h.lays.width]
    · rw [hu.schema] at hd
      rw [hu.columns] at hk
      exact h.lays.columns j d k hd hk
  indexed := h.indexed.rearranged hu.indexes

/-- the same table, the buckets of its indexes the other way round -/
def mirror (t : Table) : Table :=
  { t with indexes := t.indexes.map fun i => { i with buckets := i.buckets.reverse } }

theorem rearranged_mirror (t : Table) : t.Rearranged t.mirror where
  name := rfl
  schema := rfl
  columns := rfl
  rowCount := rfl
  indexes := List.forall₂_map_right_iff.2
    (List.forall₂_same.2 fun _ _ => ⟨rfl, (List.reverse_perm _).symm⟩)

end Table

namespace Database

variable {db db' : Database}

/-- where tables and buckets stand makes no difference to the contents -/
theorem Rearranged.twins (h : db.Sound) (hr : db.Rearranged db') : Twins db db' := by
  obtain ⟨es, hperm, htables⟩ := hr.tables
  have hkeys : (db'.tables.map (·.1)).Nodup := by
    rw [Keyed.keys_eq_of_forall₂ (htables.imp fun _ _ hef => hef.1)]
    exact (hperm.map (·.1)).nodup_iff.1 h.keys
  have hstores : ∀ f ∈ db'.tables, ∃ c, f.2.Stores c ∧ c.name = f.1 := by
    intro f hf
    obtain ⟨e, he, hname, hef⟩ := Keyed.exists_of_mem_forall₂ htables hf
    obtain ⟨c, hc, hkey⟩ := h.tables e (hperm.mem_iff.2 he)
    exact ⟨c, hc.rearranged hef, hkey.trans hname.symm⟩
  refine ⟨h, ⟨hkeys, hstores⟩, hr.name.symm, fun name => ?_⟩
  have hrel := Keyed.lookup_rel (R := Table.Rearranged) htables name
  rw [← Keyed.lookup_perm hperm h.keys] at hrel
  show Option.Rel Table.SameContents (db.tables.lookup name) (db'.tables.lookup name)
  rcases optionRel_cases hrel with ⟨ht, hu⟩ | ⟨t, u, ht, hu, htu⟩
  · rw [ht, hu]
    exact .none
  · obtain ⟨c, hc, -⟩ := h.stores ht
    rw [ht, hu]
    exact .some (hc.sameContents (hc.rearranged htu))

/-! ## texts -/

/-- what is loaded from a text that was saved has the same contents -/
theorem Sound.reload_twins (h : db.Sound) (hsize : db.Addressable) :
    ∃ loaded, ofText db.text = .ok loaded ∧ Twins db loaded := by
  obtain ⟨loaded, hload, hheld⟩ := h.reload hsize
  refine ⟨⟨db.name, loaded⟩, hload, h, sound_of_ofText hload, rfl, fun name => ?_⟩
  have hrel := Keyed.lookup_rel (R := fun t u : Table => ∃ c, t.Stores c ∧ u.Stores c) hheld name
  rw [h.lookup_sorted] at hrel
  show Option.Rel Table.SameContents (db.table? name) (loaded.lookup name)
  rcases optionRel_cases hrel with ⟨ht, hu⟩ | ⟨t, u, ht, hu, c, hc, hc'⟩
  · rw [ht, hu]
    exact .none
  · rw [ht, hu]
    exact .some (hc.sameContents hc')

/-- databases have one text if and only if they have the same contents, wherever their tables and
buckets stand; and what was loaded from a text is written as that text -/
theorem text_faithful (h : db.Reachable) :
    (∀ db', db'.Reachable → (db.text = db'.text ↔ db.SameContents db')) ∧
      (∀ db', db.Rearranged db' → db'.text = db.text) ∧
      (db.Addressable → ∃ loaded, ofText db.text = .ok loaded ∧ loaded.text = db.text) := by
  refine ⟨fun db' h' => ⟨fun htext => ?_, fun hsame => ?_⟩, fun db' hr => ?_, fun hsize => ?_⟩
  · exact h.sound.sameContents_of_text h'.sound htext
  · have htwins : Twins db db' := ⟨h.sound, h'.sound, hsame⟩
    exact htwins.text_eq
  · exact (hr.twins h.sound).text_eq.symm
  · obtain ⟨loaded, hload, htwins⟩ := h.sound.reload_twins hsize
    exact ⟨loaded, hload, htwins.text_eq.symm⟩

/-- the users, the buckets of their indexes the other way round -/
def mirroredUsers : Database := { users with tables := users.tables.map fun e => (e.1, e.2.mirror) }

/-- one text for users whose addresses were taken away and for users who never had one, and one for
the users whichever way round their buckets stand; but not the same for both -/
theorem text_faithful_users :
    cleared ≠ fresh ∧ cleared.text = fresh.text ∧ mirroredUsers ≠ users ∧
      mirroredUsers.text = users.text ∧ cleared.text ≠ users.text ∧
      ∃ loaded, ofText users.text = .ok loaded ∧ loaded.text = users.text := by
  have hcleared := text_faithful (reachable_users.after
    [.call "users" (.update [("mail", .null)] (some ⟨⟨none, "id"⟩, .equal, .int 1⟩))])
  have hfresh : fresh.Reachable := (Reachable.empty "main").after _
  have hsame : cleared.SameContents fresh :=
    sameContents_of_forall₂ (by decide +kernel) (by decide +kernel)
  have hmirrored : users.Rearranged mirroredUsers := by
    refine ⟨rfl, users.tables, .refl _, ?_⟩
    exact List.forall₂_map_right_iff.2
      (List.forall₂_same.2 fun e _ => ⟨rfl, e.2.rearranged_mirror⟩)
  have hsize : ∀ e ∈ users.tables, e.2.rowCount ≤ UInt64.size := by decide +kernel
  obtain ⟨-, hanywhere, hreload⟩ := text_faithful reachable_users
  refine ⟨by decide +kernel, (hcleared.1 fresh hfresh).2 hsame, by decide +kernel,
    hanywhere _ hmirrored, fun htext => ?_, hreload hsize⟩
  have htables := ((hcleared.1 users reachable_users).1 htext).tables "users"
  rcases optionRel_cases htables with ⟨hnone, -⟩ | ⟨t, u, ht, hu, htu⟩
  · exact absurd hnone (by decide +kernel)
  · have hrows : (cleared.table? "users").map (·.rows) = (users.table? "users").map (·.rows) := by
      rw [show cleared.table? "users" = some t from ht, hu]
      exact congrArg some htu.rows
    exact absurd hrows (by decide +kernel)

end Database

end TableStore
