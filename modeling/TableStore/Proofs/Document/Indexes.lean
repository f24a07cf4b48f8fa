import TableStore.Proofs.Database.Reachable
import TableStore.Proofs.Document.Canonical

/-!
# The indexes of a document

Rows and indexes are written from different parts of a table, the ones from its columns, the others
from buckets that every change kept up to date. What a document says about its indexes can be read
off its rows all the same.

* `IndexDocument.Inverts`     the positions of written rows, under the texts of their values in one
                              column;
* `TableDocument.Describes`   the columns and rows of a table, with an index for each constrained
                              column that inverts it;
* `Tracks.mem_positions_iff`  what is written of an index: each value, with all its positions;
* `Tracks.inverts`            so an index of the values of a column inverts the rows that hold them;
* `Stores.describes`          the document of a table that stores rows describes it;
* `Database.describes_text`   and so does each table in the text of a database.
-/

namespace TableStore

/-- the positions of written rows, each once, under the texts of their values in one column -/
structure IndexDocument.Inverts (ix : IndexDocument) (column : String)
    (rows : List (List (String × Value))) : Prop where
  named : ix.column = column
  keys : (ix.positions.map (·.1)).Nodup
  filled : ∀ e ∈ ix.positions, e.2 ≠ []
  ascending : ∀ e ∈ ix.positions, e.2.Pairwise (· < ·)
  once : (ix.positions.flatMap (·.2)).Perm (List.range rows.length)
  stands : ∀ pos row, rows[pos]? = some row → ∃ v, row.lookup column = some v ∧
    ∃ positions, ((Json.ofValue v).compact, positions) ∈ ix.positions ∧ pos ∈ positions
  shared : ∀ pos pos' row row', rows[pos]? = some row → rows[pos']? = some row' →
    ((∃ e ∈ ix.positions, pos ∈ e.2 ∧ pos' ∈ e.2) ↔ row.lookup column = row'.lookup column)

/-- the columns and rows of a table, with an index for each constrained column and for no other -/
structure TableDocument.Describes (doc : TableDocument) (t : Table) : Prop where
  columns : doc.columns = t.schema.columns
  rows : doc.rows = t.rows.map Row.pairs
  names : (doc.indexes.map (·.1)).Nodup
  indexed : ∀ column, column ∈ doc.indexes.map (·.1) ↔
    ∃ d ∈ doc.columns, d.name = column ∧ d.isConstrained = true
  inverts : ∀ e ∈ doc.indexes, e.2.Inverts e.1 doc.rows

namespace Index

variable {i : Index} {vs : List Value}

/-! ## what is written of an index -/

theorem Sound.entries_perm (h : i.Sound) :
    i.entries.Perm (i.buckets.map fun b => ((Json.ofValue b.1).compact, b)) :=
  Keyed.perm_ofList h.keys_compact

/-- each value, with all its positions -/
theorem Tracks.mem_positions_iff (h : i.Tracks vs) {e : String × List Nat} :
    e ∈ (IndexDocument.ofIndex i).positions ↔
      ∃ v ∈ vs, e = ((Json.ofValue v).compact, positionsOf v vs) := by
  have hentries : e ∈ (IndexDocument.ofIndex i).positions ↔
      ∃ b ∈ i.buckets, ((Json.ofValue b.1).compact, b.2) = e := by
    have hperm := h.sound.entries_perm.map fun e => (e.1, e.2.2)
    rw [List.map_map] at hperm
    exact hperm.mem_iff.trans List.mem_map
  rw [hentries]
  constructor
  · rintro ⟨b, hb, rfl⟩
    obtain ⟨hmem, hpositions⟩ := h.mem_buckets_iff.1 hb
    exact ⟨b.1, hmem, by rw [hpositions]⟩
  · rintro ⟨v, hv, rfl⟩
    exact ⟨(v, positionsOf v vs), h.mem_buckets_iff.2 ⟨hv, rfl⟩, rfl⟩

theorem Tracks.positions_perm (h : i.Tracks vs) :
    ((IndexDocument.ofIndex i).positions.flatMap (·.2)).Perm (List.range vs.length) := by
  have hperm := h.sound.entries_perm.flatMap_right fun e => e.2.2
  rw [List.flatMap_map] at hperm
  unfold IndexDocument.ofIndex
  rw [List.flatMap_map]
  exact hperm.trans h.flatMap_perm

/-- rows that give a column these values hold them at their places -/
theorem exists_of_lookups {rows : List (List (String × Value))} {column : String}
    (hrows : rows.map (·.lookup column) = vs.map some) {pos : Nat} {row : List (String × Value)}
    (hrow : rows[pos]? = some row) : ∃ v, row.lookup column = some v ∧ vs[pos]? = some v := by
  have hpos : (rows.map (·.lookup column))[pos]? = (vs.map some)[pos]? := by rw [hrows]
  rw [List.getElem?_map, List.getElem?_map, hrow, Option.map_some] at hpos
  obtain ⟨v, hv, hsome⟩ := Option.map_eq_some_iff.1 hpos.symm
  exact ⟨v, hsome.symm, hv⟩

/-- an index of the values of a column inverts the rows that hold them -/
theorem Tracks.inverts (h : i.Tracks vs) {rows : List (List (String × Value))}
    (hrows : rows.map (·.lookup i.column) = vs.map some) :
    (IndexDocument.ofIndex i).Inverts i.column rows where
  named := rfl
  keys := by
    unfold IndexDocument.ofIndex
    rw [List.map_map]
    exact (Keyed.ascending_ofList _).nodup
  filled e he := by
    obtain ⟨v, hv, rfl⟩ := h.mem_positions_iff.1 he
    exact positionsOf_ne_nil_iff.2 hv
  ascending e he := by
    obtain ⟨v, -, rfl⟩ := h.mem_positions_iff.1 he
    exact positionsOf_ascending v vs
  once := by
    have hlen : rows.length = vs.length := by
      rw [← List.length_map (·.lookup i.column), hrows, List.length_map]
    rw [hlen]
    exact h.positions_perm
  stands pos row hrow := by
    obtain ⟨v, hlookup, hv⟩ := exists_of_lookups hrows hrow
    have hmem := h.mem_positions_iff.2 ⟨v, List.mem_of_getElem? hv, rfl⟩
    exact ⟨v, hlookup, positionsOf v vs, hmem, mem_positionsOf.2 hv⟩
  shared pos pos' row row' hrow hrow' := by
    obtain ⟨v, hlookup, hv⟩ := exists_of_lookups hrows hrow
    obtain ⟨v', hlookup', hv'⟩ := exists_of_lookups hrows hrow'
    rw [hlookup, hlookup']
    constructor
    · rintro ⟨e, he, hpos, hpos'⟩
      -- both positions hold the value that the entry is written under
      obtain ⟨w, -, rfl⟩ := h.mem_positions_iff.1 he
      rw [← hv, ← hv', mem_positionsOf.1 hpos, mem_positionsOf.1 hpos']
    · intro hsame
      obtain rfl := Option.some.inj hsame
      exact ⟨_, h.mem_positions_iff.2 ⟨v, List.mem_of_getElem? hv, rfl⟩, mem_positionsOf.2 hv,
        mem_positionsOf.2 hv'⟩

end Index

namespace Table

variable {t : Table} {c : Contents}

/-! ## the document of a table -/

/-- the written rows give a column the values that its index is over -/
theorem Stores.lookup_rows (h : t.Stores c) {j : Nat} {d : ColumnDef}
    (hd : c.schema.columns[j]? = some d) :
    (t.rows.map Row.pairs).map (·.lookup d.name) = (columnOf j c.rows).map some := by
  unfold columnOf
  rw [h.rows_eq, List.map_map, List.map_map, List.map_map]
  refine List.map_congr_left fun row hrow => ?_
  have hfits := h.admits.fits row hrow
  have hlen : c.schema.names.length = row.length :=
    (List.length_map _).trans hfits.length.symm
  have hvalue := List.getElem?_eq_getElem (hfits.lt_length hd)
  show (c.schema.names.zip row).lookup d.name = some (row[j]?.getD .null)
  rw [Keyed.lookup_zip h.valid.names hlen (Schema.getElem?_names hd) hvalue, hvalue]
  rfl

/-- the document of a table that stores rows describes it -/
theorem Stores.describes (h : t.Stores c) : (TableDocument.ofTable t).Describes t := by
  have hperm : t.sortedIndexes.Perm (t.indexes.map fun i => (i.column, i)) :=
    Keyed.perm_ofList h.keys_indexes
  have hnames : (TableDocument.ofTable t).indexes.map (·.1) = t.sortedIndexes.map (·.1) :=
    List.map_map
  refine ⟨rfl, rfl, ?_, fun column => ?_, fun e he => ?_⟩
  · rw [hnames]
    exact (Keyed.ascending_ofList _).nodup
  · rw [hnames, (hperm.map (·.1)).mem_iff, List.map_map]
    show column ∈ t.indexes.map (·.column) ↔ ∃ d ∈ t.schema.columns, _
    rw [h.schema]
    exact h.indexed.mem_names_iff
  · obtain ⟨f, hf, rfl⟩ := List.mem_map.1 he
    obtain ⟨i, hi, rfl⟩ := List.mem_map.1 (hperm.mem_iff.1 hf)
    obtain ⟨j, d, hd, hserves⟩ := h.indexed.serves i hi
    apply hserves.tracks.inverts
    rw [hserves.column]
    exact h.lookup_rows hd

end Table

namespace Database

variable {db : Database}

/-! ## the text of a database -/

/-- the text of a database that can be reached writes a table for each name that has one, and
describes it -/
theorem describes_text (h : db.Reachable) :
    Json.read? db.text = some (Document.ofDatabase db).toJson ∧
      ((Document.ofDatabase db).tables.map (·.1)).Nodup ∧
      ∀ name, Option.Rel (fun t doc => doc.Describes t) (db.table? name)
        ((Document.ofDatabase db).tables.lookup name) := by
  refine ⟨Json.read?_pretty _, ?_, fun name => ?_⟩
  · unfold Document.ofDatabase
    rw [List.map_map]
    exact (Keyed.ascending_ofList _).nodup
  · rw [h.sound.lookup_ofDatabase]
    cases ht : db.table? name with
    | none => exact .none
    | some t =>
      obtain ⟨c, hstores, -⟩ := h.sound.stores ht
      exact .some hstores.describes

theorem describes_text_users :
    ∃ doc ix, (Document.ofDatabase users).tables.lookup "users" = some doc ∧
      ("mail", ix) ∈ doc.indexes ∧ ix.positions = [("\"c@x\"", [0]), ("null", [1])] ∧
      ix.Inverts "mail" doc.rows := by
  have hwritten : ((Document.ofDatabase users).tables.lookup "users").map
      (fun doc => (doc.indexes.lookup "mail").map (·.positions))
        = some (some [("\"c@x\"", [0]), ("null", [1])]) := by decide +kernel
  obtain ⟨-, -, htables⟩ := describes_text reachable_users
  rcases optionRel_cases (htables "users") with ⟨-, hnone⟩ | ⟨t, doc, -, hdoc, hdescribes⟩
  · rw [hnone] at hwritten
    cases hwritten
  · rw [hdoc] at hwritten
    obtain ⟨ix, hix, hpositions⟩ := Option.map_eq_some_iff.1 (Option.some.inj hwritten)
    have hmem := Keyed.mem_of_lookup hix
    exact ⟨doc, ix, hdoc, hmem, hpositions, hdescribes.inverts _ hmem⟩

end Database

end TableStore
