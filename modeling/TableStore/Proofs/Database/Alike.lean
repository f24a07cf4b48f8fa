import TableStore.Proofs.Document.Canonical
import TableStore.Proofs.Query.Join

/-!
# Databases with the same contents

* `Database.SameContents`   the same name, and tables with the same contents under the same names;
* `Database.Alike`          databases that no question tells apart;
* `Twins`                   two sound databases with the same contents;
* `Twins.alike`             they are alike;
* `Twins.apply_alike`       an operation answers alike in both, and leaves the same contents;
* `Database.alike_after`    and so does any number of operations.
-/

namespace TableStore

open Sql

namespace Database

/-- the same name, and tables with the same contents under the same names -/
structure SameContents (db db' : Database) : Prop where
  name : db.name = db'.name
  tables : ∀ name, Option.Rel Table.SameContents (db.table? name) (db'.table? name)

/-- databases that no question tells apart -/
structure Alike (db db' : Database) : Prop where
  name : db.name = db'.name
  tableNames : db.tableNames = db'.tableNames
  columns : ∀ name, db.columns name = db'.columns name
  select : ∀ q, db.select q = db'.select q
  query : ∀ text, db.query text = db'.query text
  execute : ∀ text, (db.execute text).answer = (db'.execute text).answer
  text : db.text = db'.text
  tables : ∀ name, Option.Rel Table.Alike (db.table? name) (db'.table? name)

end Database

/-- the same operation, or the addition of tables with the same contents -/
inductive Operation.Alike : Operation → Operation → Prop where
  | refl (op : Operation) : Alike op op
  | add {t u : Table} {ht : t.Built} {hu : u.Built} (h : t.SameContents u) :
    Alike (.add t ht) (.add u hu)

/-- the same answer, or tables that no question tells apart -/
inductive Reply.Alike : Reply → Reply → Prop where
  | refl (r : Reply) : Alike r r
  | table {t u : Table} (h : t.Alike u) : Alike (.table t) (.table u)

namespace Database

/-- what operations answer, one after the other -/
def answers (db : Database) : List Operation → List (Except Error Reply)
  | [] => []
  | op :: ops => (db.apply op).answer :: (db.apply op).state.answers ops

/-! ## tables by name -/

theorem table?_replace (db : Database) (name : String) (t : Table) (k : String) :
    (db.replace name t).table? k
      = if k = name then (db.table? k).map fun _ => t else db.table? k := by
  have hlookup (es : List (String × Table)) :
      (es.map fun e => if e.1 = name then (name, t) else e).lookup k
        = if k = name then (es.lookup k).map fun _ => t else es.lookup k := by
    induction es with
    | nil => exact (ite_self none).symm
    | cons e es ih =>
      rw [List.map_cons, Keyed.lookup_cons, Keyed.lookup_cons, ih]
      by_cases he : e.1 = name
      · rw [if_pos he, he]
        by_cases hk : k = name
        · rw [if_pos hk, if_pos hk, if_pos hk]
          rfl
        · rw [if_neg hk, if_neg hk, if_neg hk, if_neg hk]
      · rw [if_neg he]
        by_cases hke : k = e.1
        · rw [if_pos hke, if_pos hke, if_neg (hke ▸ he)]
        · rw [if_neg hke, if_neg hke]
  exact hlookup db.tables

theorem table?_append (db : Database) (name : String) (t : Table) (k : String) :
    { db with tables := db.tables ++ [(name, t)] }.table? k
      = (db.table? k).or (if k = name then some t else none) := by
  unfold table?
  rw [List.lookup_append, Keyed.lookup_cons]
  rfl

theorem table?_filter (db : Database) (name k : String) :
    { db with tables := db.tables.filter (·.1 ≠ name) }.table? k
      = if k = name then none else db.table? k := Keyed.lookup_filter_ne db.tables name k

variable {db db' : Database}

theorem SameContents.has_eq (h : db.SameContents db') (name : String) :
    db.has name = db'.has name := by
  unfold has
  rcases optionRel_cases (h.tables name) with ⟨ht, hu⟩ | ⟨t, u, ht, hu, -⟩
  · rw [ht, hu]
  · rw [ht, hu]
    rfl

theorem SameContents.replace (h : db.SameContents db') (name : String) {t u : Table}
    (hsame : t.SameContents u) : (db.replace name t).SameContents (db'.replace name u) := by
  refine ⟨h.name, fun k => ?_⟩
  rw [table?_replace, table?_replace]
  split
  · rcases optionRel_cases (h.tables k) with ⟨ht, hu⟩ | ⟨t', u', ht, hu, -⟩
    · rw [ht, hu]
      exact .none
    · rw [ht, hu]
      exact .some hsame
  · exact h.tables k

theorem SameContents.add (h : db.SameContents db') {t u : Table} (hsame : t.SameContents u) :
    AnswerRel SameContents (db.add t) (db'.add u) := by
  unfold Database.add
  rw [hsame.name, h.has_eq]
  split
  · exact .error _
  · refine .ok ⟨h.name, fun k => ?_⟩
    rw [table?_append, table?_append]
    rcases optionRel_cases (h.tables k) with ⟨ht, hu⟩ | ⟨t', u', ht, hu, hsame'⟩
    · rw [ht, hu, Option.none_or, Option.none_or]
      split
      · exact .some hsame
      · exact .none
    · rw [ht, hu]
      exact .some hsame'

theorem SameContents.create (h : db.SameContents db') (name : String) (columns : List ColumnDef) :
    AnswerRel SameContents (db.create name columns) (db'.create name columns) := by
  unfold Database.create
  rw [h.has_eq]
  split
  · exact .error _
  · cases Table.ofColumns name columns with
    | error e => exact .error e
    | ok t => exact h.add ⟨rfl, rfl, rfl⟩

theorem SameContents.createOfSpecs (h : db.SameContents db') (name : String)
    (columns : List ColumnSpec) :
    AnswerRel SameContents (db.createOfSpecs name columns) (db'.createOfSpecs name columns) := by
  unfold Database.createOfSpecs
  cases columns.mapM ColumnDef.ofSpec with
  | error e => exact .error e
  | ok defs => exact h.create name defs

/-! ## two sound databases -/

/-- two sound databases with the same contents -/
structure Twins (db db' : Database) : Prop where
  left : db.Sound
  right : db'.Sound
  same : db.SameContents db'

/-- a name stands for no table in both, or for tables that store the same -/
theorem Twins.table?_cases (h : Twins db db') (name : String) :
    (db.table? name = none ∧ db'.table? name = none) ∨
      ∃ t u c, db.table? name = some t ∧ db'.table? name = some u ∧ t.Stores c ∧ u.Stores c := by
  rcases optionRel_cases (h.same.tables name) with hnone | ⟨t, u, ht, hu, hsame⟩
  · exact Or.inl hnone
  · obtain ⟨c, hc, -⟩ := h.left.stores ht
    obtain ⟨c', hc', -⟩ := h.right.stores hu
    obtain rfl : c = c' := hc.of_sameContents hc' hsame
    exact Or.inr ⟨t, u, c, ht, hu, hc, hc'⟩

/-! ## questions -/

theorem Twins.select_eq (h : Twins db db') (q : Select) : db.select q = db'.select q := by
  unfold select Join.run table
  rcases h.table?_cases q.table with ⟨ht, hu⟩ | ⟨l, l', cl, hl, hl', hcl, hcl'⟩
  · rw [ht, hu]
  · rw [hl, hl']
    cases q.join with
    | none =>
      dsimp only
      rw [hcl.find_congr hcl']
      cases l'.find q.condition with
      | error e => rfl
      | ok rows => exact hcl.project_eq hcl' q.projection rows
    | some j =>
      dsimp only
      rcases h.table?_cases j.table with ⟨ht, hu⟩ | ⟨r, r', cr, hr, hr', hcr, hcr'⟩
      · rw [ht, hu]
      · rw [hr, hr']
        exact Join.ofTables_congr hcl hcl' hcr hcr' q j

/-- what depends on the contents of a table alone is the same for all tables, in their order -/
theorem Twins.sorted_congr {α : Type} (h : Twins db db') (f : Table → α)
    (hf : ∀ t u c, t.Stores c → u.Stores c → f t = f u) :
    (db.sorted.map fun e => (e.1, f e.2)) = db'.sorted.map fun e => (e.1, f e.2) := by
  apply Keyed.map_ofList_congr h.left.keys h.right.keys
  intro name
  show (db.table? name).map f = (db'.table? name).map f
  rcases h.table?_cases name with ⟨ht, hu⟩ | ⟨t, u, c, ht, hu, hc, hc'⟩
  · rw [ht, hu]
  · rw [ht, hu, Option.map_some, Option.map_some, hf t u c hc hc']

theorem Twins.tableNames_eq (h : Twins db db') : db.tableNames = db'.tableNames := by
  have hnames := congrArg (List.map (·.1)) (h.sorted_congr (fun _ => ()) fun _ _ _ _ _ => rfl)
  rw [List.map_map, List.map_map] at hnames
  exact hnames

theorem Twins.columns_eq (h : Twins db db') (name : String) :
    db.columns name = db'.columns name := by
  unfold columns table
  rcases h.table?_cases name with ⟨ht, hu⟩ | ⟨t, u, c, ht, hu, hc, hc'⟩
  · rw [ht, hu]
  · rw [ht, hu]
    exact congrArg Except.ok (hc.sameContents hc').columns

theorem Twins.text_eq (h : Twins db db') : db.text = db'.text := by
  have htables := h.sorted_congr TableDocument.ofTable fun t u c hc hc' => hc.document_eq hc'
  unfold text Document.ofDatabase
  rw [h.same.name, htables]

theorem Twins.query_eq (h : Twins db db') (text : String) : db.query text = db'.query text := by
  unfold query
  simp only [h.select_eq]

/-! ## operations -/

theorem Twins.onTable_alike {α β : Type} {S : α → β → Prop} (h : Twins db db') (name : String)
    {step : Table → Outcome Table α} {step' : Table → Outcome Table β}
    (hstep : ∀ t u c, t.Stores c → u.Stores c → (step t).Alike S Table.SameContents (step' u)) :
    (db.onTable name step).Alike S SameContents (db'.onTable name step') := by
  unfold onTable table
  rcases h.table?_cases name with ⟨ht, hu⟩ | ⟨t, u, c, ht, hu, hc, hc'⟩
  · rw [ht, hu]
    exact Outcome.alike_fail _ h.same
  · rw [ht, hu]
    obtain ⟨hanswer, hstate⟩ := hstep t u c hc hc'
    exact ⟨hanswer, h.same.replace name hstate⟩

theorem Twins.drop_alike (h : Twins db db') (name : String) :
    (db.drop name).Alike Table.Alike SameContents (db'.drop name) := by
  unfold drop table
  rcases h.table?_cases name with ⟨ht, hu⟩ | ⟨t, u, c, ht, hu, hc, hc'⟩
  · rw [ht, hu]
    exact Outcome.alike_fail _ h.same
  · rw [ht, hu]
    refine Outcome.alike_ok (hc.alike hc') ⟨h.same.name, fun k => ?_⟩
    rw [table?_filter, table?_filter]
    split
    · exact .none
    · exact h.same.tables k

theorem Twins.insertValues_alike (h : Twins db db') (table : String)
    (columns : Option (List String)) (values : List Value) :
    (db.insertValues table columns values).Alike Eq SameContents
      (db'.insertValues table columns values) := by
  apply h.onTable_alike
  intro t u c hc hc'
  rw [hc.schema, hc'.schema]
  dsimp only
  split
  · exact hc.insert_alike hc' _
  · exact Outcome.alike_fail _ (hc.sameContents hc')

theorem Twins.run_alike (h : Twins db db') (s : Statement) :
    (db.run s).Alike Eq SameContents (db'.run s) := by
  have hcongr {α : Type} (f : α → Answer) (a b : α) (hab : a = b) : f a = f b := congrArg f hab
  cases s with
  | createTable table columns =>
    exact (Outcome.alike_ofExcept (h.same.createOfSpecs table columns) h.same).map
      fun _ _ _ => rfl
  | insert table columns values =>
    exact (h.insertValues_alike table columns values).map (hcongr Answer.inserted)
  | select q =>
    show Outcome.Alike Eq SameContents ⟨(db.select q).map Answer.rows, db⟩
      ⟨(db'.select q).map Answer.rows, db'⟩
    rw [h.select_eq]
    cases db'.select q with
    | error e => exact ⟨.error e, h.same⟩
    | ok result => exact ⟨.ok rfl, h.same⟩
  | update table pairs condition =>
    cases condition with
    | none => exact Outcome.alike_fail _ h.same
    | some k =>
      have hupdate := h.onTable_alike table fun t u c hc hc' => hc.update_alike hc' pairs (some k)
      exact hupdate.map (hcongr Answer.affected)
  | delete table condition =>
    cases condition with
    | none => exact Outcome.alike_fail _ h.same
    | some k =>
      have hdelete := h.onTable_alike table fun t u c hc hc' => hc.delete_alike hc' (some k)
      exact hdelete.map (hcongr Answer.affected)

theorem Twins.execute_alike (h : Twins db db') (text : String) :
    (db.execute text).Alike Eq SameContents (db'.execute text) := by
  unfold execute
  cases Statement.ofText text with
  | error e => exact Outcome.alike_fail e h.same
  | ok s => exact h.run_alike s

/-- databases with the same contents are alike -/
theorem Twins.alike (h : Twins db db') : db.Alike db' where
  name := h.same.name
  tableNames := h.tableNames_eq
  columns := h.columns_eq
  select := h.select_eq
  query := h.query_eq
  execute text := (h.execute_alike text).answer.eq
  text := h.text_eq
  tables name := by
    rcases h.table?_cases name with ⟨ht, hu⟩ | ⟨t, u, c, ht, hu, hc, hc'⟩
    · rw [ht, hu]
      exact .none
    · rw [ht, hu]
      exact .some (hc.alike hc')

/-- an operation answers alike in databases with the same contents, and leaves the same contents -/
theorem Twins.apply_alike (h : Twins db db') {op op' : Operation} (hop : op.Alike op') :
    (db.apply op).Alike Reply.Alike SameContents (db'.apply op') := by
  cases hop with
  | add hsame =>
    exact (Outcome.alike_ofExcept (h.same.add hsame) h.same).map fun _ _ _ => .refl _
  | refl =>
    have hcongr {α : Type} (f : α → Reply) (a b : α) (hab : a = b) : (f a).Alike (f b) :=
      hab ▸ .refl (f a)
    cases op with
    | run s => exact (h.run_alike s).map (hcongr Reply.answer)
    | createOfSpecs name columns =>
      exact (Outcome.alike_ofExcept (h.same.createOfSpecs name columns) h.same).map
        fun _ _ _ => .refl _
    | create name columns =>
      exact (Outcome.alike_ofExcept (h.same.create name columns) h.same).map fun _ _ _ => .refl _
    | add t built =>
      have hadd := h.same.add (t := t) ⟨rfl, rfl, rfl⟩
      exact (Outcome.alike_ofExcept hadd h.same).map fun _ _ _ => .refl _
    | drop name => exact (h.drop_alike name).map fun _ _ => .table
    | call table k =>
      have hcall := h.onTable_alike table fun t u c hc hc' => hc.call_alike hc' k
      exact hcall.map (hcongr Reply.effect)

theorem Twins.apply (h : Twins db db') {op op' : Operation} (hop : op.Alike op') :
    Twins (db.apply op).state (db'.apply op').state where
  left := (h.left.apply_atomic op).state h.left
  right := (h.right.apply_atomic op').state h.right
  same := (h.apply_alike hop).state

/-! ## runs -/

/-- from databases with the same contents, operations get answers alike and lead to databases with
the same contents, which no question tells apart -/
theorem alike_after (h : db.Reachable) (h' : db'.Reachable) (hsame : db.SameContents db')
    {ops ops' : List Operation} (hops : List.Forall₂ Operation.Alike ops ops') :
    List.Forall₂ (AnswerRel Reply.Alike) (db.answers ops) (db'.answers ops') ∧
      (db.after ops).SameContents (db'.after ops') ∧ (db.after ops).Alike (db'.after ops') := by
  have htwins : Twins db db' := ⟨h.sound, h'.sound, hsame⟩
  clear h h' hsame
  induction hops generalizing db db' with
  | nil => exact ⟨.nil, htwins.same, htwins.alike⟩
  | cons hop _ ih =>
    obtain ⟨hanswers, hcontents, halike⟩ := ih (htwins.apply hop)
    exact ⟨.cons (htwins.apply_alike hop).answer hanswers, hcontents, halike⟩

/-- tables with the same contents, listed in the same order -/
theorem sameContents_of_forall₂ (hname : db.name = db'.name)
    (h : List.Forall₂ (fun e f => e.1 = f.1 ∧ e.2.SameContents f.2) db.tables db'.tables) :
    db.SameContents db' := by
  refine ⟨hname, fun name => ?_⟩
  unfold table?
  generalize db.tables = es, db'.tables = fs at h
  induction h with
  | nil => exact .none
  | @cons e f es fs hef _ ih =>
    rw [Keyed.lookup_cons, Keyed.lookup_cons, hef.1]
    split
    · exact .some hef.2
    · exact ih

/-- the first user's address is gone, but for the payload that it leaves behind -/
def cleared : Database :=
  users.after [.call "users" (.update [("mail", .null)] (some ⟨⟨none, "id"⟩, .equal, .int 1⟩))]

/-- the same users, who never had an address -/
def fresh : Database :=
  (empty "main").after
    [.run (.createTable "users" [⟨"id", .int, ["PRIMARY", "KEY"]⟩, ⟨"mail", .text, ["UNIQUE"]⟩]),
      .run (.insert "users" none [.int 1, .null]), .run (.insert "users" none [.int 3, .null])]

/-- a user comes, and the table goes -/
def lastOperations : List Operation :=
  [.run (.insert "users" none [.int 2, .text "c@x"]), .drop "users"]

theorem alike_after_cleared :
    cleared ≠ fresh ∧
      List.Forall₂ (AnswerRel Reply.Alike) (cleared.answers lastOperations)
        (fresh.answers lastOperations) ∧
      (cleared.after lastOperations).SameContents (fresh.after lastOperations) ∧
      (cleared.after lastOperations).Alike (fresh.after lastOperations) := by
  have hne : cleared ≠ fresh := by decide +kernel
  have hname : cleared.name = fresh.name := by decide +kernel
  have hsame : cleared.SameContents fresh := sameContents_of_forall₂ hname (by decide +kernel)
  have hops : List.Forall₂ Operation.Alike lastOperations lastOperations :=
    .cons (.refl _) (.cons (.refl _) .nil)
  exact ⟨hne, alike_after (reachable_users.after _) ((Reachable.empty "main").after _) hsame hops⟩

end Database

end TableStore
