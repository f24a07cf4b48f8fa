import TableStore.Proofs.Strict.Regular
import TableStore.Proofs.Strict.Write

/-!
# No access leads outside of a table

* `Strict.apply`, `Strict.select`   the operations on a database, failing at any access to a place
                          that is not there;
* `Strict.InBounds`       what holds of a table that no access leads outside of;
* `Database.inBounds_of_reachable`   where a database can be reached, the checks make no difference,
                          and no answer is an internal error.
-/

namespace TableStore

open Sql

namespace Strict

def select (db : Database) (q : Select) : Except Error QueryResult :=
  match q.join with
  | some j => do
    let l ← db.table q.table
    let r ← db.table j.table
    ofTables l r q j
  | none => do
    let t ← db.table q.table
    let rows ← find t q.condition
    project t q.projection rows

def insertValues (db : Database) (table : String) (columns : Option (List String))
    (values : List Value) : Outcome Database Row :=
  db.onTable table fun t =>
    let names := columns.getD t.schema.names
    if names.length = values.length then insert t (names.zip values)
    else .fail (.schema (.valueCount table names.length values.length)) t

def run (db : Database) : Statement → Outcome Database Answer
  | .createTable table columns =>
    (Outcome.ofExcept (db.createOfSpecs table columns) db).map fun _ => .created table
  | .insert table columns values => (insertValues db table columns values).map .inserted
  | .select q => ⟨(select db q).map .rows, db⟩
  | .update _ _ none => .fail (.safety "UPDATE") db
  | .update table pairs (some k) =>
    (db.onTable table fun t => update t pairs (some k)).map .affected
  | .delete _ none => .fail (.safety "DELETE") db
  | .delete table (some k) => (db.onTable table fun t => delete t (some k)).map .affected

def apply (db : Database) : Operation → Outcome Database Reply
  | .run s => (run db s).map .answer
  | .createOfSpecs name columns =>
    (Outcome.ofExcept (db.createOfSpecs name columns) db).map fun _ => .done
  | .create name columns => (Outcome.ofExcept (db.create name columns) db).map fun _ => .done
  | .add t _ => (Outcome.ofExcept (db.add t) db).map fun _ => .done
  | .drop name => (db.drop name).map .table
  | .call table k => (db.onTable table (call · k)).map .effect

/-! ## one table -/

/-- no access leads outside of the table, no row is left out, and no answer is an internal error -/
structure InBounds (t : Table) : Prop where
  call : ∀ k, Strict.call t k = t.call k ∧ Regular (t.call k).answer
  find : ∀ k, Strict.find t k = t.find k ∧ Regular (t.find k)
  scan : ∀ k, Strict.scan t k = t.scan k ∧ Regular (t.scan k)
  row : ∀ pos, Strict.row? t pos = .ok (t.row? pos)
  rows : Strict.rows t = .ok t.rows ∧ t.rows.length = t.rowCount

theorem inBounds_of_stores {t : Table} {c : Contents} (h : t.Stores c) : InBounds t := by
  have hshaped := shaped_of_lays h.lays
  refine ⟨fun k => ⟨call_eq h k, h.regular_call k⟩, fun k => ⟨find_eq h k, t.regular_find k⟩,
    fun k => ⟨scan_eq hshaped k, t.regular_scan k⟩, row?_eq hshaped, rows_eq hshaped, ?_⟩
  rw [h.rows_eq, List.length_map, h.lays.count]

/-- what a search answers has a value for each column -/
theorem length_of_mem_find {t : Table} {c : Contents} (h : t.Stores c) {k : Option Condition}
    {rows : List Row} (hfind : t.find k = .ok rows) {r : Row} (hr : r ∈ rows) :
    r.values.length = t.schema.columns.length := by
  rw [h.find_eq] at hfind
  obtain ⟨p, -, rfl⟩ := map_eq_ok_iff.1 hfind
  obtain ⟨row, hrow, rfl⟩ := List.mem_map.1 hr
  exact h.length_of_mem row (List.mem_filter.1 hrow).1

end Strict

/-! ## databases -/

namespace Database

variable {db : Database}

/-- steps that agree on tables that store rows agree on the tables of a sound database -/
theorem Sound.onTable_congr {α : Type} (h : db.Sound) (name : String)
    {step step' : Table → Outcome Table α} (hstep : ∀ t c, t.Stores c → step t = step' t) :
    db.onTable name step = db.onTable name step' := by
  unfold onTable table
  cases ht : db.table? name with
  | none => rfl
  | some t =>
    obtain ⟨c, hstores, -⟩ := h.stores ht
    dsimp only
    rw [hstep t c hstores]

theorem Sound.stores_of_table (h : db.Sound) {name : String} {t : Table}
    (ht : db.table name = .ok t) : ∃ c, t.Stores c := by
  unfold table at ht
  split at ht
  · rename_i u hu
    cases ht
    obtain ⟨c, hstores, -⟩ := h.stores hu
    exact ⟨c, hstores⟩
  · cases ht

theorem Sound.regular_onTable {α : Type} (h : db.Sound) (name : String)
    {step : Table → Outcome Table α} (hstep : ∀ t c, t.Stores c → Regular (step t).answer) :
    Regular (db.onTable name step).answer := by
  unfold onTable
  cases ht : db.table name with
  | error e => exact (db.regular_table name).of_error ht
  | ok t =>
    obtain ⟨c, hstores⟩ := h.stores_of_table ht
    exact hstep t c hstores

/-! ## statements -/

theorem Sound.strict_select (h : db.Sound) (q : Select) : Strict.select db q = db.select q := by
  unfold Strict.select select
  cases q.join with
  | some j =>
    unfold Join.run
    dsimp only [bind, Except.bind]
    cases hl : db.table q.table with
    | error e => rfl
    | ok l =>
      dsimp only
      cases hr : db.table j.table with
      | error e => rfl
      | ok r =>
        obtain ⟨cl, hcl⟩ := h.stores_of_table hl
        obtain ⟨cr, hcr⟩ := h.stores_of_table hr
        exact Strict.ofTables_eq hcl hcr q j
  | none =>
    dsimp only [bind, Except.bind]
    cases ht : db.table q.table with
    | error e => rfl
    | ok t =>
      obtain ⟨c, hc⟩ := h.stores_of_table ht
      dsimp only
      rw [Strict.find_eq hc]
      cases hfind : t.find q.condition with
      | error e => rfl
      | ok rows =>
        exact Strict.project_eq (fun r hr => Strict.length_of_mem_find hc hfind hr) q.projection

theorem Sound.strict_run (h : db.Sound) (s : Statement) : Strict.run db s = db.run s := by
  cases s with
  | createTable table columns => rfl
  | insert table columns values =>
    refine congrArg (Outcome.map · _) (h.onTable_congr table fun t c hstores => ?_)
    dsimp only
    rw [Strict.insert_eq]
  | select q =>
    exact congrArg (fun r => (⟨r.map .rows, db⟩ : Outcome Database Answer)) (h.strict_select q)
  | update table pairs condition =>
    cases condition with
    | none => rfl
    | some k =>
      exact congrArg (Outcome.map · _) (h.onTable_congr table fun t c hstores =>
        Strict.update_eq (Strict.shaped_of_lays hstores.lays) pairs (some k))
  | delete table condition =>
    cases condition with
    | none => rfl
    | some k =>
      exact congrArg (Outcome.map · _) (h.onTable_congr table fun t c hstores =>
        Strict.delete_eq hstores (some k))

theorem Sound.regular_run (h : db.Sound) (s : Statement) : Regular (db.run s).answer := by
  cases s with
  | createTable table columns =>
    exact ((db.regular_createOfSpecs table columns).ofExcept db).map _
  | insert table columns values =>
    refine (h.regular_onTable table fun t c hstores => ?_).map _
    dsimp only
    split
    · exact hstores.regular_insert _
    · exact regular_error rfl
  | select q => exact (db.regular_select q).map _
  | update table pairs condition =>
    cases condition with
    | none => exact regular_error rfl
    | some k => exact (h.regular_onTable table fun t c hstores => hstores.regular_update _ _).map _
  | delete table condition =>
    cases condition with
    | none => exact regular_error rfl
    | some k => exact (h.regular_onTable table fun t c hstores => hstores.regular_delete _).map _

/-! ## operations -/

theorem Sound.strict_apply (h : db.Sound) (op : Operation) : Strict.apply db op = db.apply op := by
  cases op with
  | run s => exact congrArg (Outcome.map · _) (h.strict_run s)
  | createOfSpecs name columns => rfl
  | create name columns => rfl
  | add t built => rfl
  | drop name => rfl
  | call table k =>
    exact congrArg (Outcome.map · _) (h.onTable_congr table fun t c hstores =>
      Strict.call_eq hstores k)

theorem Sound.regular_apply (h : db.Sound) (op : Operation) : Regular (db.apply op).answer := by
  cases op with
  | run s => exact (h.regular_run s).map _
  | createOfSpecs name columns =>
    exact ((db.regular_createOfSpecs name columns).ofExcept db).map _
  | create name columns => exact ((db.regular_create name columns).ofExcept db).map _
  | add t built => exact ((db.regular_add t).ofExcept db).map _
  | drop name =>
    apply Regular.map
    unfold drop
    split
    · rename_i e he
      exact (db.regular_table name).of_error he
    · exact regular_ok _
  | call table k => exact (h.regular_onTable table fun t c hstores => hstores.regular_call k).map _

/-- in a database that can be reached no access leads outside of a table, whatever is asked of it,
and no answer is an internal error; nor do they for a table outside of a database -/
theorem inBounds_of_reachable (h : db.Reachable) :
    (∀ op, Strict.apply db op = db.apply op ∧ Regular (db.apply op).answer) ∧
      (∀ q, Strict.select db q = db.select q ∧ Regular (db.select q)) ∧
      ∀ t : Table, t.Built ∨ (∃ name, db.table? name = some t) → Strict.InBounds t := by
  refine ⟨fun op => ⟨h.sound.strict_apply op, h.sound.regular_apply op⟩,
    fun q => ⟨h.sound.strict_select q, db.regular_select q⟩, ?_⟩
  rintro t (hbuilt | ⟨name, ht⟩)
  · obtain ⟨c, hstores⟩ := hbuilt.stores
    exact Strict.inBounds_of_stores hstores
  · obtain ⟨c, hstores, -⟩ := h.sound.stores ht
    exact Strict.inBounds_of_stores hstores

theorem inBounds_shop :
    (Strict.apply (shop []) (.call "users" (.delete (some ⟨⟨none, "id"⟩, .less, .int 3⟩)))).answer
        = .ok (.effect (.count 1)) ∧
      Strict.select (shop []) receipts
        = .ok ⟨["mail", "orders.total"], [[.text "c@x", .int 10]]⟩ ∧
      ∃ t, (shop []).table? "users" = some t ∧ Strict.rows t
        = .ok [⟨["id", "mail"], [.int 1, .text "c@x"]⟩, ⟨["id", "mail"], [.int 3, .null]⟩] := by
  obtain ⟨hops, hqueries, htables⟩ := inBounds_of_reachable (reachable_shop [])
  have hrows : ((shop []).table? "users").map Table.rows
      = some [⟨["id", "mail"], [.int 1, .text "c@x"]⟩, ⟨["id", "mail"], [.int 3, .null]⟩] := by
    decide +kernel
  obtain ⟨t, ht, hall⟩ := Option.map_eq_some_iff.1 hrows
  refine ⟨?_, ?_, t, ht, ?_⟩
  · rw [(hops _).1]
    decide +kernel
  · rw [(hqueries receipts).1]
    decide +kernel
  · rw [(htables t (.inr ⟨_, ht⟩)).rows.1, hall]

end Database

end TableStore
