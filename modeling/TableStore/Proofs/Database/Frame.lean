import TableStore.Proofs.Database.Creation

/-!
# Statements on different tables

* `Statement.tables`     the tables that a statement names;
* `Database.Local`       a step that reads and changes the tables of some names alone;
* `Local.answer_after`   after a step over other names it answers as before;
* `Local.table?_comm`    and in either order the two leave the same tables;
* `local_run`            a statement is such a step, over the tables that it names;
* `run_comm`             so statements that name different tables may be run in either order.
-/

namespace TableStore

open Sql

/-- the tables that a query reads -/
def Sql.Select.tables (q : Select) : List String := q.table :: (q.join.map (·.table)).toList

/-- the tables that a statement names -/
def Sql.Statement.tables : Statement → List String
  | .createTable table _ => [table]
  | .insert table _ _ => [table]
  | .select q => q.tables
  | .update table _ _ => [table]
  | .delete table _ => [table]

namespace Database

/-- the names stand for the same tables -/
def AgreeOn (names : List String) (db db' : Database) : Prop :=
  ∀ name ∈ names, db.table? name = db'.table? name

/-- a step that reads the tables of these names alone, and leaves every other table as it was -/
structure Local {α : Type} (names : List String) (step : Database → Outcome Database α) :
    Prop where
  reads : ∀ {db db' : Database}, AgreeOn names db db' →
    (step db).Alike Eq (AgreeOn names) (step db')
  keeps : ∀ (db : Database) (name : String), name ∉ names →
    (step db).state.table? name = db.table? name
  name : ∀ db : Database, (step db).state.name = db.name

/-- the same name, and the same tables in any order -/
structure SameTables (db db' : Database) : Prop where
  name : db.name = db'.name
  tables : db.tables.Perm db'.tables

/-! ## two steps over different names -/

section
variable {α β : Type} {names names' : List String} {step : Database → Outcome Database α}
  {step' : Database → Outcome Database β}

theorem Local.map (h : Local names step) (f : α → β) : Local names fun db => (step db).map f where
  reads hdb := (h.reads hdb).map fun _ _ hab => congrArg f hab
  keeps := h.keeps
  name := h.name

theorem Local.agreeOn_after (h : Local names step) (hd : names'.Disjoint names) (db : Database) :
    AgreeOn names' (step db).state db := fun name hname => h.keeps db name (hd hname)

/-- a step answers after another one as it does before it -/
theorem Local.answer_after (h : Local names step) (h' : Local names' step')
    (hd : names.Disjoint names') (db : Database) :
    (step (step' db).state).answer = (step db).answer :=
  (h.reads (h'.agreeOn_after hd db)).answer.eq

/-- in either order two steps leave the same tables -/
theorem Local.table?_comm (h : Local names step) (h' : Local names' step')
    (hd : names.Disjoint names') (db : Database) (name : String) :
    (step (step' db).state).state.table? name = (step' (step db).state).state.table? name := by
  by_cases hname : name ∈ names
  · have hafter := (h.reads (h'.agreeOn_after hd db)).state name hname
    rw [hafter, h'.keeps _ name (hd hname)]
  · rw [h.keeps _ name hname]
    by_cases hname' : name ∈ names'
    · have hafter := (h'.reads (h.agreeOn_after (List.disjoint_symm hd) db)).state name hname'
      exact hafter.symm
    · rw [h'.keeps _ name hname', h'.keeps _ name hname', h.keeps _ name hname]

end

/-! ## steps on one table -/

theorem agreeOn_singleton {name : String} {db db' : Database} :
    AgreeOn [name] db db' ↔ db.table? name = db'.table? name := List.forall_mem_singleton

/-- a step on one table reads and changes that table alone -/
theorem local_onTable {α : Type} (name : String) (step : Table → Outcome Table α) :
    Local [name] (·.onTable name step) where
  reads {db db'} hdb := by
    rw [agreeOn_singleton] at hdb
    unfold onTable table
    rw [hdb]
    cases db'.table? name with
    | none => exact Outcome.alike_fail _ (agreeOn_singleton.2 hdb)
    | some t =>
      refine ⟨?_, agreeOn_singleton.2 ?_⟩
      · show AnswerRel Eq (step t).answer (step t).answer
        cases (step t).answer with
        | error e => exact .error e
        | ok a => exact .ok rfl
      · show (db.replace name (step t).state).table? name
          = (db'.replace name (step t).state).table? name
        rw [table?_replace, table?_replace, hdb]
  keeps db k hk := by
    rw [List.mem_singleton] at hk
    unfold onTable
    cases db.table name with
    | error e => rfl
    | ok t =>
      show (db.replace name (step t).state).table? k = db.table? k
      rw [table?_replace, if_neg hk]
  name db := by
    unfold onTable
    cases db.table name <;> rfl

/-! ## new tables -/

/-- a new table comes last, under the name that was asked for -/
theorem createOfSpecs_eq_ok {db db' : Database} {name : String} {columns : List ColumnSpec}
    (h : db.createOfSpecs name columns = .ok db') :
    ∃ t, db' = { db with tables := db.tables ++ [(name, t)] } := by
  rcases createOfSpecs_cases db name columns with ⟨-, t, -, hcreate⟩ | ⟨-, fault, hcreate⟩
  · rw [hcreate] at h
    exact ⟨t, (Except.ok.inj h).symm⟩
  · rw [hcreate] at h
    cases h

theorem createOfSpecs_rel {db db' : Database} {name : String} (h : AgreeOn [name] db db')
    (columns : List ColumnSpec) :
    AnswerRel (AgreeOn [name]) (db.createOfSpecs name columns)
      (db'.createOfSpecs name columns) := by
  rw [agreeOn_singleton] at h
  have hhas : db.has name = db'.has name := congrArg Option.isSome h
  unfold createOfSpecs
  cases columns.mapM ColumnDef.ofSpec with
  | error e => exact .error e
  | ok defs =>
    dsimp only
    unfold create
    rw [hhas]
    split
    · exact .error _
    cases ht : Table.ofColumns name defs with
    | error e => exact .error e
    | ok t =>
      obtain ⟨s, -, hstores⟩ := Table.stores_ofColumns ht
      dsimp only
      unfold add
      rw [hstores.name, hhas]
      split
      · exact .error _
      · refine .ok (agreeOn_singleton.2 ?_)
        rw [table?_append, table?_append, h]

theorem local_createTable (name : String) (columns : List ColumnSpec) :
    Local [name] fun db =>
      (Outcome.ofExcept (db.createOfSpecs name columns) db).map fun _ => Answer.created name where
  reads hdb := (Outcome.alike_ofExcept (createOfSpecs_rel hdb columns) hdb).map fun _ _ _ => rfl
  keeps db k hk := by
    rw [List.mem_singleton] at hk
    cases h : db.createOfSpecs name columns with
    | error e => rfl
    | ok db' =>
      obtain ⟨t, rfl⟩ := createOfSpecs_eq_ok h
      show Database.table? { db with tables := db.tables ++ [(name, t)] } k = db.table? k
      rw [table?_append, if_neg hk, Option.or_none]
  name db := by
    cases h : db.createOfSpecs name columns with
    | error e => rfl
    | ok db' =>
      obtain ⟨t, rfl⟩ := createOfSpecs_eq_ok h
      rfl

/-! ## queries -/

theorem select_congr {db db' : Database} {q : Select} (h : AgreeOn q.tables db db') :
    db.select q = db'.select q := by
  have hleft : db.table q.table = db'.table q.table := by
    unfold table
    rw [h q.table List.mem_cons_self]
  unfold select
  cases hjoin : q.join with
  | none =>
    dsimp only
    rw [hleft]
  | some j =>
    have hright : db.table j.table = db'.table j.table := by
      unfold table
      rw [h j.table (by simp [Select.tables, hjoin])]
    unfold Join.run
    dsimp only
    rw [hleft, hright]

theorem local_select (q : Select) :
    Local q.tables fun db => ⟨(db.select q).map Answer.rows, db⟩ where
  reads {db db'} hdb := by
    rw [select_congr hdb]
    cases db'.select q with
    | error e => exact ⟨.error e, hdb⟩
    | ok result => exact ⟨.ok rfl, hdb⟩
  keeps _ _ _ := rfl
  name _ := rfl

/-! ## statements -/

theorem local_fail {α : Type} (names : List String) (e : Error) :
    Local names fun db => (.fail e db : Outcome Database α) where
  reads hdb := Outcome.alike_fail e hdb
  keeps _ _ _ := rfl
  name _ := rfl

/-- a statement reads and changes the tables that it names, and no others -/
theorem local_run (s : Statement) : Local s.tables (·.run s) := by
  cases s with
  | createTable table columns => exact local_createTable table columns
  | insert table columns values => exact (local_onTable table _).map Answer.inserted
  | select q => exact local_select q
  | update table pairs condition =>
    cases condition with
    | none => exact local_fail _ _
    | some k => exact (local_onTable table _).map Answer.affected
  | delete table condition =>
    cases condition with
    | none => exact local_fail _ _
    | some k => exact (local_onTable table _).map Answer.affected

/-- sound databases with the same tables under all names hold the same tables -/
theorem Sound.perm {db db' : Database} (h : db.Sound) (h' : db'.Sound)
    (hsame : ∀ name, db.table? name = db'.table? name) : db.tables.Perm db'.tables := by
  apply (List.perm_ext_iff_of_nodup h.keys.of_map h'.keys.of_map).2
  intro e
  have htable := hsame e.1
  unfold table? at htable
  rw [← Keyed.lookup_eq_some_iff h.keys, ← Keyed.lookup_eq_some_iff h'.keys, htable]

/-- a statement leaves the tables alone that it does not name; and two statements that name
different tables may be run in either order: each answers or fails alike, and in the end every
table is the same -/
theorem run_comm {db : Database} (h : db.Reachable) (s : Statement) :
    (∀ name, name ∉ s.tables → (db.run s).state.table? name = db.table? name) ∧
      ∀ u : Statement, s.tables.Disjoint u.tables →
        ((db.run u).state.run s).answer = (db.run s).answer ∧
          ((db.run s).state.run u).answer = (db.run u).answer ∧
          ((db.run u).state.run s).state.SameTables ((db.run s).state.run u).state := by
  refine ⟨(local_run s).keeps db, fun u hd => ?_⟩
  have hsound (db : Database) (h : db.Sound) (s : Statement) : (db.run s).state.Sound :=
    (h.run_atomic s).state h
  refine ⟨(local_run s).answer_after (local_run u) hd db,
    (local_run u).answer_after (local_run s) (List.disjoint_symm hd) db, ?_, ?_⟩
  · rw [(local_run s).name, (local_run u).name, (local_run u).name, (local_run s).name]
  · exact (hsound _ (hsound db h.sound u) s).perm (hsound _ (hsound db h.sound s) u)
      ((local_run s).table?_comm (local_run u) hd db)

/-- the first user moves to another address -/
def newAddress : Statement :=
  .update "users" [("mail", .text "d@x")] (some ⟨⟨none, "id"⟩, .equal, .int 1⟩)

/-- the first user orders once more, though one order is all that anybody may have -/
def secondOrder : Statement := .insert "orders" none [.text "1", .int 40]

theorem run_comm_shop :
    ((shop ["UNIQUE"]).run newAddress).state.table? "orders" = (shop ["UNIQUE"]).table? "orders" ∧
      (((shop ["UNIQUE"]).run secondOrder).state.run newAddress).answer = .ok (.affected 1) ∧
      (((shop ["UNIQUE"]).run newAddress).state.run secondOrder).answer
        = .error (.constraint "buyer" (.duplicate false (.text "1"))) ∧
      (((shop ["UNIQUE"]).run secondOrder).state.run newAddress).state.SameTables
        (((shop ["UNIQUE"]).run newAddress).state.run secondOrder).state := by
  have hmove : ((shop ["UNIQUE"]).run newAddress).answer = .ok (.affected 1) := by decide +kernel
  have horder : ((shop ["UNIQUE"]).run secondOrder).answer
      = .error (.constraint "buyer" (.duplicate false (.text "1"))) := by decide +kernel
  obtain ⟨hkeeps, hcomm⟩ := run_comm (reachable_shop ["UNIQUE"]) newAddress
  have hother : "orders" ∉ newAddress.tables := by decide
  obtain ⟨hafter, hafter', hsame⟩ := hcomm secondOrder (List.disjoint_singleton.2 hother)
  exact ⟨hkeeps "orders" hother, hafter.trans hmove, hafter'.trans horder, hsame⟩

end Database

end TableStore
