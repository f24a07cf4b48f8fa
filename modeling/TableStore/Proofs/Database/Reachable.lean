import TableStore.Database.Run
import TableStore.Document.Load
import TableStore.Proofs.Keyed
import TableStore.Proofs.Table.Calls

/-!
# The databases that can be reached

* `Operation`, `Database.apply`   everything that changes a database in place;
* `Database.after`                one operation after the other;
* `Database.Reachable`            an empty database, or one read from a text, after any operations;
* `Database.Sound`                tables under their own names, each name once, and each table
                                  storing rows;
* `Sound.apply_atomic`            an operation fails and changes nothing, or leaves a sound database;
* `Reachable.sound`               every database that can be reached is sound.
-/

namespace TableStore

/-- what changes a database: a statement, the tables that there are, a call to one of them -/
inductive Operation where
  | run (s : Sql.Statement)
  | createOfSpecs (name : String) (columns : List ColumnSpec)
  | create (name : String) (columns : List ColumnDef)
  | add (t : Table) (built : t.Built)
  | drop (name : String)
  | call (table : String) (c : Table.Call)

/-- what an operation answers -/
inductive Reply where
  | answer (a : Answer)
  | done
  | table (t : Table)
  | effect (e : Table.Effect)
  deriving DecidableEq

namespace Database

/-- carries out an operation -/
def apply (db : Database) : Operation → Outcome Database Reply
  | .run s => (db.run s).map .answer
  | .createOfSpecs name columns =>
    (Outcome.ofExcept (db.createOfSpecs name columns) db).map fun _ => .done
  | .create name columns => (Outcome.ofExcept (db.create name columns) db).map fun _ => .done
  | .add t _ => (Outcome.ofExcept (db.add t) db).map fun _ => .done
  | .drop name => (db.drop name).map .table
  | .call table c => (db.onTable table (·.call c)).map .effect

/-- the database after operations -/
def after (db : Database) (ops : List Operation) : Database :=
  ops.foldl (fun db op => (db.apply op).state) db

/-- an empty database, or one read from a text, after any operations, answered or failed -/
inductive Reachable : Database → Prop where
  | empty (name : String) : Reachable (.empty name)
  | loaded {text : String} {db : Database} (h : Database.ofText text = .ok db) : Reachable db
  | apply {db : Database} (h : Reachable db) (op : Operation) : Reachable (db.apply op).state

/-- tables under their own names, each name once, and each table storing rows -/
structure Sound (db : Database) : Prop where
  keys : (db.tables.map (·.1)).Nodup
  tables : ∀ e ∈ db.tables, ∃ c, e.2.Stores c ∧ c.name = e.1

variable {db : Database}

theorem sound_empty (name : String) : (empty name).Sound := ⟨List.nodup_nil, by simp [empty]⟩

theorem Sound.stores (h : db.Sound) {name : String} {t : Table} (ht : db.table? name = some t) :
    ∃ c, t.Stores c ∧ c.name = name := h.tables (name, t) (Keyed.mem_of_lookup ht)

theorem Sound.lookup_sorted (h : db.Sound) (name : String) :
    db.sorted.lookup name = db.table? name := Keyed.lookup_ofList h.keys name

/-- under the name of a table stands its document -/
theorem Sound.lookup_ofDatabase (h : db.Sound) (name : String) :
    (Document.ofDatabase db).tables.lookup name
      = (db.table? name).map TableDocument.ofTable := by
  unfold Document.ofDatabase
  rw [Keyed.lookup_map_snd, h.lookup_sorted]

/-! ## steps on one table -/

/-- putting a table back where it stands changes nothing -/
theorem Sound.replace_self (h : db.Sound) {name : String} {t : Table}
    (ht : db.table? name = some t) : db.replace name t = db := by
  have hmap : db.tables.map (fun e => if e.1 = name then (name, t) else e) = db.tables := by
    refine (List.map_congr_left fun e he => ?_).trans (List.map_id _)
    show (if e.1 = name then (name, t) else e) = e
    by_cases hname : e.1 = name
    · have hlookup := Keyed.lookup_of_mem h.keys (k := e.1) (v := e.2) he
      rw [hname] at hlookup
      rw [if_pos hname, Option.some.inj (ht.symm.trans hlookup), ← hname]
    · rw [if_neg hname]
  unfold replace
  rw [hmap]

theorem Sound.replace (h : db.Sound) {name : String} {t : Table} {c : Contents}
    (hstores : t.Stores c) (hname : c.name = name) : (db.replace name t).Sound := by
  constructor
  · have hkeys : (db.replace name t).tables.map (·.1) = db.tables.map (·.1) := by
      unfold Database.replace
      rw [List.map_map]
      refine List.map_congr_left fun e _ => ?_
      show (if e.1 = name then (name, t) else e).1 = e.1
      by_cases he : e.1 = name
      · rw [if_pos he, he]
      · rw [if_neg he]
    rw [hkeys]
    exact h.keys
  · intro e he
    obtain ⟨e', he', rfl⟩ := List.mem_map.1 he
    by_cases hsame : e'.1 = name
    · rw [if_pos hsame]
      exact ⟨c, hstores, hname⟩
    · rw [if_neg hsame]
      exact h.tables e' he'

/-- a step on a table that fails without a change, or keeps its name, does so in the database -/
theorem Sound.onTable_atomic {α : Type} (h : db.Sound) (name : String)
    {step : Table → Outcome Table α}
    (hstep : ∀ t c, t.Stores c → (step t).Atomic t (Table.Keeps c.name c.schema)) :
    (db.onTable name step).Atomic db Sound := by
  unfold onTable table
  cases ht : db.table? name with
  | none => exact Outcome.atomic_fail _ _ _
  | some t =>
    obtain ⟨c, hstores, hname⟩ := h.stores ht
    dsimp only
    rcases hstep t c hstores with ⟨e, hfail⟩ | ⟨a, u, hok, rows, hu⟩
    · refine Or.inl ⟨e, ?_⟩
      rw [hfail, Outcome.within_fail, h.replace_self ht]
    · refine Or.inr ⟨a, db.replace name u, ?_, h.replace hu hname⟩
      rw [hok, Outcome.within_ok]

/-! ## tables that come and go -/

theorem has_eq_false_iff {name : String} : db.has name = false ↔ name ∉ db.tables.map (·.1) := by
  unfold has table?
  rw [Option.isSome_eq_false_iff, Option.isNone_iff_eq_none, List.lookup_eq_none_iff]
  simp only [List.mem_map, bne_iff_ne]
  constructor
  · rintro h ⟨e, he, hname⟩
    exact h e he hname.symm
  · intro h e he hname
    exact h ⟨e, he, hname.symm⟩

theorem Sound.add (h : db.Sound) {t : Table} {c : Contents} (hstores : t.Stores c)
    {db' : Database} (hadd : db.add t = .ok db') : db'.Sound := by
  unfold Database.add at hadd
  split at hadd
  · cases hadd
  rename_i hnew
  cases hadd
  rw [Bool.not_eq_true, has_eq_false_iff] at hnew
  constructor
  · rw [List.map_append, List.nodup_append]
    refine ⟨h.keys, List.nodup_singleton _, fun k hk l hl => ?_⟩
    obtain rfl := List.mem_singleton.1 hl
    rintro rfl
    exact hnew hk
  · intro e he
    rcases List.mem_append.1 he with he | he
    · exact h.tables e he
    · rw [List.mem_singleton.1 he]
      exact ⟨c, hstores, hstores.name.symm⟩

theorem Sound.create (h : db.Sound) {name : String} {columns : List ColumnDef} {db' : Database}
    (hcreate : db.create name columns = .ok db') : db'.Sound := by
  unfold Database.create at hcreate
  split at hcreate
  · cases hcreate
  · split at hcreate
    · cases hcreate
    rename_i t ht
    obtain ⟨s, -, hstores⟩ := Table.stores_ofColumns ht
    exact h.add hstores hcreate

theorem Sound.createOfSpecs (h : db.Sound) {name : String} {columns : List ColumnSpec}
    {db' : Database} (hcreate : db.createOfSpecs name columns = .ok db') : db'.Sound := by
  unfold Database.createOfSpecs at hcreate
  split at hcreate
  · cases hcreate
  · exact h.create hcreate

theorem Sound.drop_atomic (h : db.Sound) (name : String) : (db.drop name).Atomic db Sound := by
  unfold Database.drop
  cases db.table name with
  | error e => exact Outcome.atomic_fail _ _ _
  | ok t =>
    refine Or.inr ⟨t, _, rfl, ?_, fun e he => h.tables e (List.mem_filter.1 he).1⟩
    exact h.keys.sublist (List.filter_sublist.map _)

/-! ## operations -/

theorem Sound.run_atomic (h : db.Sound) (s : Sql.Statement) : (db.run s).Atomic db Sound := by
  cases s with
  | createTable table columns =>
    exact (Outcome.atomic_ofExcept fun _ => h.createOfSpecs).map _
  | insert table columns values =>
    refine (h.onTable_atomic table fun t c hstores => ?_).map _
    dsimp only
    split
    · exact Table.insert_atomic hstores _
    · exact Outcome.atomic_fail _ _ _
  | select q =>
    show (⟨(db.select q).map .rows, db⟩ : Outcome Database Answer).Atomic db Sound
    cases db.select q with
    | error e => exact Or.inl ⟨e, rfl⟩
    | ok result => exact Or.inr ⟨.rows result, db, rfl, h⟩
  | update table pairs condition =>
    cases condition with
    | none => exact Outcome.atomic_fail _ _ _
    | some k =>
      exact (h.onTable_atomic table fun t c hstores => Table.update_atomic hstores _ _).map _
  | delete table condition =>
    cases condition with
    | none => exact Outcome.atomic_fail _ _ _
    | some k =>
      exact (h.onTable_atomic table fun t c hstores => Table.delete_atomic hstores _).map _

/-- an operation fails and changes nothing, or leaves a sound database -/
theorem Sound.apply_atomic (h : db.Sound) (op : Operation) : (db.apply op).Atomic db Sound := by
  cases op with
  | run s => exact (h.run_atomic s).map _
  | createOfSpecs name columns => exact (Outcome.atomic_ofExcept fun _ => h.createOfSpecs).map _
  | create name columns => exact (Outcome.atomic_ofExcept fun _ => h.create).map _
  | add t built =>
    obtain ⟨c, hstores⟩ := built.stores
    exact (Outcome.atomic_ofExcept fun _ => h.add hstores).map _
  | drop name => exact (h.drop_atomic name).map _
  | call table k =>
    exact (h.onTable_atomic table fun t c hstores => Table.call_atomic hstores k).map _

/-! ## loading -/

theorem stores_of_fill {key : String} {pos : Nat} {t u : Table} {c : Contents}
    {rows : List (List (String × Value))} (hfill : TableDocument.fill key pos t rows = .ok u)
    (hstores : t.Stores c) : ∃ c', u.Stores c' := by
  induction rows generalizing pos t c with
  | nil =>
    cases hfill
    exact ⟨c, hstores⟩
  | cons r rows ih =>
    unfold TableDocument.fill at hfill
    rcases Table.insert_cases hstores r with ⟨e, -, hfail⟩ | ⟨values, w, -, hok, hw⟩
    · rw [hfail] at hfill
      cases hfill
    · rw [hok] at hfill
      exact ih hfill hw

theorem Sound.addTables (h : db.Sound) {tables : List (String × TableDocument)} {db' : Database}
    (hload : Document.addTables db tables = .ok db') : db'.Sound := by
  induction tables generalizing db with
  | nil =>
    cases hload
    exact h
  | cons e tables ih =>
    obtain ⟨key, d⟩ := e
    unfold Document.addTables at hload
    split at hload
    · cases hload
    rename_i t ht
    split at hload
    · cases hload
    rename_i db'' hadd
    unfold TableDocument.toTable at ht
    split at ht
    · cases ht
    split at ht
    · cases ht
    rename_i u hu
    obtain ⟨s, -, hstores⟩ := Table.stores_ofColumns hu
    obtain ⟨c, hstores'⟩ := stores_of_fill ht hstores
    exact ih (h.add hstores' hadd) hload

theorem sound_of_ofText {text : String} (hload : ofText text = .ok db) : db.Sound := by
  unfold ofText at hload
  split at hload
  · cases hload
  · exact (sound_empty _).addTables hload

/-! ## all databases that can be reached -/

theorem Reachable.after (h : db.Reachable) (ops : List Operation) : (db.after ops).Reachable := by
  induction ops generalizing db with
  | nil => exact h
  | cons op ops ih => exact ih (h.apply op)

theorem Reachable.sound (h : db.Reachable) : db.Sound := by
  induction h with
  | empty name => exact sound_empty name
  | loaded hload => exact sound_of_ofText hload
  | apply _ op ih => exact (ih.apply_atomic op).state ih

/-- three users come, one takes the key of another and is refused, one gets a new address, and one
goes -/
def userOperations : List Operation :=
  [.run (.createTable "users" [⟨"id", .int, ["PRIMARY", "KEY"]⟩, ⟨"mail", .text, ["UNIQUE"]⟩]),
    .run (.insert "users" none [.int 1, .text "a@x"]),
    .run (.insert "users" none [.int 2, .null]),
    .run (.insert "users" none [.int 2, .text "b@x"]),
    .call "users" (.insert [("mail", .null), ("id", .text "3")]),
    .run (.update "users" [("mail", .text "c@x")] (some ⟨⟨none, "id"⟩, .equal, .int 1⟩)),
    .run (.delete "users" (some ⟨⟨none, "id"⟩, .equal, .int 2⟩))]

/-- the users that are left -/
def users : Database := (empty "main").after userOperations

theorem reachable_users : users.Reachable := (Reachable.empty "main").after userOperations

end Database

end TableStore
