import TableStore.Proofs.Database.Reachable
import TableStore.Proofs.Document.Decode
import TableStore.Proofs.Document.Rows
import TableStore.Proofs.Text.Bytes
import TableStore.Storage.Files

/-!
# Which documents can be loaded

* `Document.Consistent`      each table is stored under its name, its columns make a valid schema,
                             and its rows are lawful;
* `Document.FirstFault`      the reason against the first table that is not so;
* `Document.readable_of_ofText?`   what is read has its tables and the columns of its rows in order;
* `Document.toDatabase_cases`   a consistent document gives the tables it describes, any other one
                             the reason against its first faulty table;
* `Database.ofDocument_spec`   so loading accepts the consistent documents, whatever they say of
                             indexes.
-/

namespace TableStore

/-! ## consistent documents -/

namespace TableDocument

def schema (d : TableDocument) : Schema := ⟨d.columns⟩

/-- what the table of a document is to hold -/
def contents (d : TableDocument) : Contents :=
  ⟨d.name, d.schema, d.rows.map d.schema.valuesOf⟩

/-- the table stored under `key` is one that can be had -/
structure Consistent (key : String) (d : TableDocument) : Prop where
  name : key = d.name
  valid : d.schema.Valid
  rows : d.schema.Lawful d.rows

/-- the reason against the table stored under `key`; a row is named that is the first one not lawful
beside those before it -/
inductive Fault (key : String) (d : TableDocument) : Corruption → Prop where
  | misnamed (hname : key ≠ d.name) : Fault key d (.misnamed key d.name)
  | schema {e : Error} (hname : key = d.name) (hvalid : ¬ d.schema.Valid)
    (he : Schema.ofColumns d.columns = .error e) : Fault key d (.table e)
  | row {pos : Nat} (e : Error) (hname : key = d.name) (hvalid : d.schema.Valid)
    (hpos : pos < d.rows.length) (hleast : ∀ p < pos, d.schema.Lawful (d.rows.take (p + 1)))
    (hfault : ¬ d.schema.Lawful (d.rows.take (pos + 1))) : Fault key d (.row pos key e)

/-- the table has the columns of the document, and its rows in their order -/
structure HeldBy (d : TableDocument) (t : Table) : Prop where
  name : t.name = d.name
  columns : t.schema.columns = d.columns
  rows : t.rows = d.rows.map fun r => ⟨d.schema.names, d.schema.valuesOf r⟩

end TableDocument

namespace Document

def Consistent (d : Document) : Prop := ∀ e ∈ d.tables, e.2.Consistent e.1

/-- the reason against the first table at fault -/
def FirstFault (d : Document) (reason : Corruption) : Prop :=
  ∃ before key table after, d.tables = before ++ (key, table) :: after ∧
    (∀ e ∈ before, e.2.Consistent e.1) ∧ table.Fault key reason

/-- the database has the tables of the document under their keys, and no others -/
structure HeldBy (d : Document) (db : Database) : Prop where
  name : db.name = d.name
  tables : List.Forall₂ (fun e f => f.1 = e.1 ∧ e.2.HeldBy f.2) d.tables db.tables

/-- the same document without its indexes -/
def withoutIndexes (d : Document) : Document :=
  { d with tables := d.tables.map fun e => (e.1, { e.2 with indexes := [] }) }

end Document

/-! ## what is read -/

/-- tables, and columns of a row, in the order of their names -/
structure Document.Readable (d : Document) : Prop where
  tables : Keyed.Ascending d.tables
  rows : ∀ e ∈ d.tables, ∀ r ∈ e.2.rows, Keyed.Ascending r

namespace Json

theorem exists_of_mem_mapM {α β : Type} {f : α → Option β} {xs : List α} {ys : List β}
    (h : xs.mapM f = some ys) {y : β} (hy : y ∈ ys) : ∃ x ∈ xs, f x = some y := by
  induction xs generalizing ys with
  | nil =>
    cases h
    cases hy
  | cons x xs ih =>
    rw [List.mapM_cons] at h
    obtain ⟨z, hz, h⟩ := Option.bind_eq_some_iff.1 h
    obtain ⟨zs, hzs, h⟩ := Option.bind_eq_some_iff.1 h
    cases h
    rcases List.mem_cons.1 hy with rfl | hy
    · exact ⟨x, List.mem_cons_self, hz⟩
    · obtain ⟨w, hw, hwy⟩ := ih hzs hy
      exact ⟨w, List.mem_cons_of_mem x hw, hwy⟩

/-- the entries of a map are in the order of their keys, each of them read from a tree -/
theorem of_entries? {α : Type} {value? : Json → Option α} {j : Json} {es : List (String × α)}
    (h : entries? value? j = some es) :
    Keyed.Ascending es ∧ ∀ e ∈ es, ∃ j, value? j = some e.2 := by
  unfold entries? at h
  split at h
  · obtain ⟨fs, hfs, rfl⟩ := Option.map_eq_some_iff.1 h
    refine ⟨Keyed.ascending_ofList fs, fun e he => ?_⟩
    obtain ⟨m, -, hm⟩ := exists_of_mem_mapM hfs (Keyed.mem_of_mem_ofList he)
    obtain ⟨v, hv, rfl⟩ := Option.map_eq_some_iff.1 hm
    exact ⟨m.2, hv⟩
  · cases h

end Json

theorem TableDocument.ascending_of_ofJson? {j : Json} {d : TableDocument}
    (h : ofJson? j = some d) : ∀ r ∈ d.rows, Keyed.Ascending r := by
  unfold ofJson? at h
  split at h
  · rename_i name columns rows indexes hfields
    obtain ⟨name, hname, h⟩ := Option.bind_eq_some_iff.1 h
    obtain ⟨columns, hcolumns, h⟩ := Option.bind_eq_some_iff.1 h
    obtain ⟨rows, hrows, h⟩ := Option.bind_eq_some_iff.1 h
    obtain ⟨indexes, hindexes, h⟩ := Option.bind_eq_some_iff.1 h
    cases h
    intro r hr
    unfold Json.items? at hrows
    split at hrows
    · obtain ⟨item, -, hitem⟩ := Json.exists_of_mem_mapM hrows hr
      exact (Json.of_entries? hitem).1
    · cases hrows
  · cases h

/-- what is read has its tables and the columns of its rows in order -/
theorem Document.readable_of_ofText? {text : String} {d : Document} (h : ofText? text = some d) :
    d.Readable := by
  obtain ⟨j, -, h⟩ := Option.bind_eq_some_iff.1 h
  unfold ofJson? at h
  split at h
  · obtain ⟨name, -, h⟩ := Option.bind_eq_some_iff.1 h
    obtain ⟨tables, htables, h⟩ := Option.bind_eq_some_iff.1 h
    cases h
    obtain ⟨hascending, hread⟩ := Json.of_entries? htables
    refine ⟨hascending, fun e he => ?_⟩
    obtain ⟨j, hj⟩ := hread e he
    exact TableDocument.ascending_of_ofJson? hj
  · cases h

/-! ## tables -/

namespace TableDocument

variable {key : String} {d : TableDocument}

theorem Fault.not_consistent {reason : Corruption} (h : d.Fault key reason) :
    ¬ d.Consistent key := by
  intro hd
  cases h with
  | misnamed hname => exact hname hd.name
  | schema _ hvalid => exact hvalid hd.valid
  | row _ _ _ _ _ hfault => exact hfault (hd.rows.sublist (List.take_sublist _ _))

/-- what a table stores that has been filled from a document -/
theorem heldBy_of_stores {t : Table} (h : t.Stores d.contents) : d.HeldBy t := by
  refine ⟨h.name, congrArg Schema.columns h.schema, ?_⟩
  rw [h.rows_eq]
  exact List.map_map

/-- a table is had with the contents that the document says, or there is a reason against it -/
theorem toTable_cases (key : String) (hrows : ∀ r ∈ d.rows, (r.map (·.1)).Nodup) :
    (d.Consistent key ∧ ∃ t, d.toTable key = .ok t ∧ t.Stores d.contents) ∨
      ∃ reason, d.Fault key reason ∧ d.toTable key = .error reason := by
  unfold toTable Table.ofColumns
  by_cases hname : key = d.name
  · rw [if_neg (not_not_intro hname)]
    cases hcolumns : Schema.ofColumns d.columns with
    | error e =>
      have hvalid : ¬ d.schema.Valid := fun hv => by
        have hok : Schema.ofColumns d.columns = .ok d.schema :=
          Schema.ofColumns_eq_ok_iff.2 ⟨rfl, hv⟩
        rw [hok] at hcolumns
        cases hcolumns
      exact Or.inr ⟨_, .schema hname hvalid hcolumns, rfl⟩
    | ok s =>
      obtain ⟨hs, hvalid⟩ := Schema.ofColumns_eq_ok_iff.1 hcolumns
      obtain rfl : s = d.schema := congrArg Schema.mk hs
      have hlawful {rows : List (List (String × Value))} (hsub : rows.Sublist d.rows) :
          d.schema.Lawful rows ↔ Contents.Takes ⟨d.name, d.schema, []⟩ rows :=
        Schema.lawful_iff fun r hr => hrows r (hsub.subset hr)
      rcases (Table.stores_ofSchema d.name hvalid).fill_cases key 0 d.rows hrows with
        ⟨htakes, t, ht, hstores⟩ | ⟨pos, e, hpos, hbefore, hfault, ht⟩
      · exact Or.inl ⟨⟨hname, hvalid, (hlawful (List.Sublist.refl _)).2 htakes⟩, t, ht, hstores⟩
      · have hbefore := (hlawful (List.take_sublist _ _)).2 hbefore
        have hfault := mt (hlawful (List.take_sublist _ _)).1 hfault
        rw [Nat.zero_add] at ht
        refine Or.inr ⟨_, .row e hname hvalid hpos (fun p hp => ?_) hfault, ht⟩
        exact hbefore.sublist (List.take_prefix_take_left hp).sublist
  · rw [if_pos hname]
    exact Or.inr ⟨_, .misnamed hname, rfl⟩

end TableDocument

/-! ## documents -/

theorem Database.add_eq_ok {db : Database} {t : Table} (h : t.name ∉ db.tables.map (·.1)) :
    db.add t = .ok { db with tables := db.tables ++ [(t.name, t)] } := by
  unfold Database.add
  rw [Database.has_eq_false_iff.2 h]
  rfl

namespace Document

/-- tables are had one after the other, up to the first with a reason against it -/
theorem addTables_cases (db : Database) (es : List (String × TableDocument))
    (hkeys : (db.tables.map (·.1) ++ es.map (·.1)).Nodup)
    (hrows : ∀ e ∈ es, ∀ r ∈ e.2.rows, (r.map (·.1)).Nodup) :
    ((∀ e ∈ es, e.2.Consistent e.1) ∧ ∃ loaded,
        addTables db es = .ok { db with tables := db.tables ++ loaded } ∧
        List.Forall₂ (fun e f => f.1 = e.1 ∧ f.2.Stores e.2.contents) es loaded) ∨
      ∃ before key table after reason, es = before ++ (key, table) :: after ∧
        (∀ e ∈ before, e.2.Consistent e.1) ∧ table.Fault key reason ∧
        addTables db es = .error reason := by
  induction es generalizing db with
  | nil =>
    refine Or.inl ⟨List.forall_mem_nil _, [], ?_, .nil⟩
    rw [List.append_nil]
    rfl
  | cons e es ih =>
    rw [List.forall_mem_cons] at hrows
    unfold addTables
    rcases TableDocument.toTable_cases e.1 hrows.1 with
      ⟨hconsistent, t, ht, hstores⟩ | ⟨reason, hfault, ht⟩
    · have hname : t.name = e.1 := hstores.name.trans hconsistent.name.symm
      have hnew : t.name ∉ db.tables.map (·.1) := by
        rw [hname]
        rw [List.nodup_append] at hkeys
        exact fun hmem => hkeys.2.2 e.1 hmem e.1 List.mem_cons_self rfl
      have hadd := Database.add_eq_ok hnew
      rw [hname] at hadd
      simp only [ht, hadd]
      rcases ih { db with tables := db.tables ++ [(e.1, t)] } (by simpa using hkeys) hrows.2 with
        ⟨hrest, loaded, hload, hheld⟩ |
        ⟨before, key, table, after, reason, rfl, hbefore, hfault, hload⟩
      · refine Or.inl ⟨List.forall_mem_cons.2 ⟨hconsistent, hrest⟩, (e.1, t) :: loaded, ?_,
          .cons ⟨rfl, hstores⟩ hheld⟩
        rw [hload, List.append_assoc]
        rfl
      · exact Or.inr ⟨e :: before, key, table, after, reason, rfl,
          List.forall_mem_cons.2 ⟨hconsistent, hbefore⟩, hfault, hload⟩
    · rw [ht]
      exact Or.inr ⟨[], e.1, e.2, es, reason, rfl, List.forall_mem_nil _, hfault, rfl⟩

theorem FirstFault.not_consistent {d : Document} {reason : Corruption} (h : d.FirstFault reason) :
    ¬ d.Consistent := by
  obtain ⟨before, key, table, after, htables, -, hfault⟩ := h
  intro hd
  refine hfault.not_consistent (hd (key, table) ?_)
  rw [htables]
  exact List.mem_append_right _ List.mem_cons_self

/-- a database is had with the tables that the document says, or there is a reason against it -/
theorem toDatabase_cases {d : Document} (h : d.Readable) :
    (d.Consistent ∧ ∃ loaded, d.toDatabase = .ok ⟨d.name, loaded⟩ ∧
        List.Forall₂ (fun e f => f.1 = e.1 ∧ f.2.Stores e.2.contents) d.tables loaded) ∨
      ∃ reason, d.FirstFault reason ∧ d.toDatabase = .error reason := by
  rcases addTables_cases (.empty d.name) d.tables h.tables.nodup
      fun e he r hr => (h.rows e he r hr).nodup with
    ⟨hconsistent, loaded, hload, hheld⟩ |
    ⟨before, key, table, after, reason, htables, hbefore, hfault, hload⟩
  · exact Or.inl ⟨hconsistent, loaded, hload, hheld⟩
  · exact Or.inr ⟨reason, ⟨before, key, table, after, htables, hbefore, hfault⟩, hload⟩

/-- the indexes of a document are not looked at -/
theorem toDatabase_withoutIndexes (d : Document) : d.withoutIndexes.toDatabase = d.toDatabase := by
  have hadd (db : Database) (es : List (String × TableDocument)) :
      addTables db (es.map fun e => (e.1, { e.2 with indexes := [] })) = addTables db es := by
    induction es generalizing db with
    | nil => rfl
    | cons e es ih =>
      have htable : TableDocument.toTable e.1 { e.2 with indexes := [] } = e.2.toTable e.1 := rfl
      rw [List.map_cons, addTables, addTables, htable]
      cases e.2.toTable e.1 with
      | error c => rfl
      | ok t =>
        dsimp only
        cases db.add t with
        | error e => rfl
        | ok db => exact ih db
  exact hadd (.empty d.name) d.tables

end Document

namespace Database

/-- loading accepts the consistent documents and gives the tables that they describe; of any other
it names the first table at fault, by the bytes of the keys; and the indexes of a document do not
matter -/
theorem ofDocument_spec {text : String} {d : Document} (h : Document.ofText? text = some d)
    (path : String) :
    ((∃ db, ofDocument path text = .ok db) ↔ d.Consistent) ∧
    (∀ db, ofDocument path text = .ok db → d.HeldBy db) ∧
    (¬ d.Consistent → d.tables.Pairwise (fun e f => Text.bytes e.1 < Text.bytes f.1) ∧
      ∃ reason, d.FirstFault reason ∧ ofDocument path text = .error (.corrupt path reason)) ∧
    ∀ text' d', Document.ofText? text' = some d' → d'.withoutIndexes = d.withoutIndexes →
      ofDocument path text' = ofDocument path text := by
  have hload {text : String} {d : Document} (h : Document.ofText? text = some d) :
      ofDocument path text = d.toDatabase.mapError (.corrupt path) := by
    unfold ofDocument ofText
    rw [h]
    dsimp only
    cases d.toDatabase <;> rfl
  have hindexes : ∀ text' d', Document.ofText? text' = some d' →
      d'.withoutIndexes = d.withoutIndexes → ofDocument path text' = ofDocument path text := by
    intro text' d' h' hsame
    rw [hload h, hload h', ← Document.toDatabase_withoutIndexes d', hsame,
      Document.toDatabase_withoutIndexes]
  have hreadable := Document.readable_of_ofText? h
  rcases Document.toDatabase_cases hreadable with
    ⟨hconsistent, loaded, hok, hheld⟩ | ⟨reason, hfault, herror⟩
  · have hdb : ofDocument path text = .ok ⟨d.name, loaded⟩ := by
      rw [hload h, hok, Except.mapError]
    refine ⟨⟨fun _ => hconsistent, fun _ => ⟨_, hdb⟩⟩, fun db hok' => ?_,
      fun hne => absurd hconsistent hne, hindexes⟩
    rw [hdb] at hok'
    cases hok'
    exact ⟨rfl, hheld.imp fun e f hf => ⟨hf.1, TableDocument.heldBy_of_stores hf.2⟩⟩
  · have hfail : ofDocument path text = .error (.corrupt path reason) := by
      rw [hload h, herror, Except.mapError]
    have hbytes := hreadable.tables.imp Text.bytes_lt_iff.2
    have hnone : ∀ db, ofDocument path text ≠ .ok db := by
      intro db hok
      rw [hfail] at hok
      cases hok
    exact ⟨⟨fun ⟨db, hok⟩ => absurd hok (hnone db), fun hd => absurd hd hfault.not_consistent⟩,
      fun db hok => absurd hok (hnone db), fun _ => ⟨hbytes, reason, hfault, hfail⟩, hindexes⟩

/-- two keys that differ in the document, and are the same number -/
def clashing : Document :=
  ⟨"main", [("t", ⟨"t", [⟨"id", .int, true, true⟩], [[("id", .int 5)], [("id", .text " 5")]], []⟩)]⟩

theorem ofDocument_spec_clashing :
    Document.ofText? clashing.toJson.pretty = some clashing ∧ ¬ clashing.Consistent ∧
      ∃ reason, clashing.FirstFault reason ∧
        ofDocument "t.json" clashing.toJson.pretty = .error (.corrupt "t.json" reason) := by
  have hordered : clashing.Ordered :=
    ⟨List.pairwise_singleton _ _, List.forall_mem_singleton.2 ⟨.nil, List.forall_mem_nil _⟩⟩
  have hread : Document.ofText? clashing.toJson.pretty = some clashing :=
    Document.ofText?_pretty hordered
  obtain ⟨hiff, -, hfault, -⟩ := ofDocument_spec hread "t.json"
  have hclash : clashing.toDatabase
      = .error (.row 1 "t" (.constraint "id" (.duplicate true (.int 5)))) := by decide +kernel
  have hne : ¬ clashing.Consistent := by
    rw [← hiff, ofDocument, ofText, hread]
    dsimp only
    rw [hclash]
    rintro ⟨db, h⟩
    cases h
  exact ⟨hread, hne, (hfault hne).2⟩

end Database

end TableStore
