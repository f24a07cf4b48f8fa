import TableStore.Proofs.Constraint
import TableStore.Proofs.Database.Alike

/-!
# New tables

* `Database.Creatable`     columns as a statement writes them, that make a table under a free name;
* `Table.New`              the table that they make: no rows, and an index without entries for each
                           column with a constraint;
* `ofSpecs_cases`          the columns are read all, or one is refused for its words;
* `valid_meanings_iff`     when the columns that are read make a schema;
* `createOfSpecs_exact`    a table is created exactly if it can be, and nothing else changes; and
                           otherwise nothing changes at all.
-/

namespace TableStore

namespace Database

/-- columns that can be made into a table of that name -/
structure Creatable (db : Database) (name : String) (specs : List ColumnSpec) : Prop where
  constraints : ∀ s ∈ specs, ∃ cs, s.Writes cs
  free : db.table? name = none
  nonempty : specs ≠ []
  names : (specs.map (·.name)).Nodup
  oneKey : specs.countP (·.mentionsKey) ≤ 1

end Database

/-- a table of these columns, in their order, that holds nothing -/
structure Table.New (t : Table) (name : String) (specs : List ColumnSpec) : Prop where
  name : t.name = name
  columns : t.schema.columns = specs.map ColumnSpec.meaning
  rowCount : t.rowCount = 0
  rows : t.rows = []
  indexed : t.indexes.map (·.column) = (specs.filter (!·.constraints.isEmpty)).map (·.name)
  unused : ∀ i ∈ t.indexes, i.buckets = []

section
variable (specs : List ColumnSpec)

/-! ## the columns -/

/-- all columns are read, or one of them is refused for its words -/
theorem ColumnDef.ofSpecs_cases :
    ((∀ s ∈ specs, ∃ cs, s.Writes cs) ∧ specs.mapM ofSpec = .ok (specs.map ColumnSpec.meaning)) ∨
      (¬ ∀ s ∈ specs, ∃ cs, s.Writes cs) ∧ ∃ fault, specs.mapM ofSpec = .error (.schema fault) := by
  induction specs with
  | nil => exact Or.inl ⟨List.forall_mem_nil _, rfl⟩
  | cons s specs ih =>
    rw [List.forall_mem_cons, List.mapM_cons]
    rcases ofSpec_cases s with ⟨hs, hspec⟩ | ⟨hs, fault, hspec⟩
    · rw [hspec]
      rcases ih with ⟨hrest, hspecs⟩ | ⟨hrest, fault, hspecs⟩
      · rw [hspecs]
        exact Or.inl ⟨⟨hs, hrest⟩, rfl⟩
      · rw [hspecs]
        exact Or.inr ⟨fun h => hrest h.2, fault, rfl⟩
    · rw [hspec]
      exact Or.inr ⟨fun h => hs h.1, fault, rfl⟩

theorem Schema.names_meanings :
    (Schema.mk (specs.map ColumnSpec.meaning)).names = specs.map (·.name) := by
  unfold names
  rw [List.map_map]
  rfl

/-- a column with the words of a primary key has words, so it is unique as well -/
theorem Schema.valid_meanings_iff :
    (Schema.mk (specs.map ColumnSpec.meaning)).Valid ↔
      specs ≠ [] ∧ (specs.map (·.name)).Nodup ∧ specs.countP (·.mentionsKey) ≤ 1 := by
  have hcount : (specs.map ColumnSpec.meaning).countP (·.isPrimaryKey)
      = specs.countP (·.mentionsKey) := List.countP_map
  have hkeys : ∀ d ∈ specs.map ColumnSpec.meaning, d.isPrimaryKey = true → d.isUnique = true := by
    intro d hd hkey
    obtain ⟨s, -, rfl⟩ := List.mem_map.1 hd
    have hcon := s.isConstrained_meaning
    unfold ColumnDef.isConstrained at hcon
    rw [hkey, Bool.true_or] at hcon
    exact hcon.symm
  constructor
  · intro h
    refine ⟨fun hnil => h.nonempty (by simp [hnil]), ?_, hcount ▸ h.oneKey⟩
    rw [← names_meanings]
    exact h.names
  · rintro ⟨hne, hnames, hone⟩
    exact ⟨by simpa using hne, names_meanings specs ▸ hnames, hkeys, hcount ▸ hone⟩

/-! ## the table -/

/-- the table of the columns that are read, with nothing in it -/
theorem Table.new_ofSchema (name : String) :
    (ofSchema name ⟨specs.map ColumnSpec.meaning⟩).New name specs where
  name := rfl
  columns := rfl
  rowCount := rfl
  rows := rfl
  indexed := by
    show ((((specs.map ColumnSpec.meaning).filter (·.isConstrained)).map Index.ofDef).map
      (·.column)) = _
    rw [List.map_map, List.filter_map, List.map_map]
    have hfilter : specs.filter ((·.isConstrained) ∘ ColumnSpec.meaning)
        = specs.filter (!·.constraints.isEmpty) :=
      List.filter_congr fun s _ => s.isConstrained_meaning
    rw [hfilter]
    rfl
  unused := by
    intro i hi
    obtain ⟨d, -, rfl⟩ := List.mem_map.1 hi
    rfl

end

namespace Database

section
variable {db : Database} {name : String} {specs : List ColumnSpec}

theorem creatable_iff : db.Creatable name specs ↔
    (∀ s ∈ specs, ∃ cs, s.Writes cs) ∧ db.table? name = none ∧
      (Schema.mk (specs.map ColumnSpec.meaning)).Valid := by
  rw [Schema.valid_meanings_iff]
  constructor
  · intro h
    exact ⟨h.constraints, h.free, h.nonempty, h.names, h.oneKey⟩
  · rintro ⟨hspecs, hfree, hne, hnames, hone⟩
    exact ⟨hspecs, hfree, hne, hnames, hone⟩

/-- a valid schema makes the last table of the database, under a name that is free -/
theorem create_cases (db : Database) (name : String) (columns : List ColumnDef) :
    ((db.table? name = none ∧ (Schema.mk columns).Valid) ∧ db.create name columns
        = .ok { db with tables := db.tables ++ [(name, .ofSchema name ⟨columns⟩)] }) ∨
      ¬ (db.table? name = none ∧ (Schema.mk columns).Valid) ∧
        ∃ fault, db.create name columns = .error (.schema fault) := by
  unfold create has Table.ofColumns
  cases hfree : db.table? name with
  | some t =>
    refine Or.inr ⟨fun h => ?_, _, rfl⟩
    cases h.1
  | none =>
    rw [if_neg (by simp)]
    rcases Schema.ofColumns_cases columns with ⟨hv, hschema⟩ | ⟨hv, fault, hschema⟩
    · rw [hschema]
      refine Or.inl ⟨⟨rfl, hv⟩, ?_⟩
      show db.add (.ofSchema name ⟨columns⟩) = _
      unfold add
      rw [if_neg (by simp [has, Table.ofSchema, hfree])]
      rfl
    · rw [hschema]
      exact Or.inr ⟨fun h => hv h.2, fault, rfl⟩

/-- columns as a statement writes them make the last table, or are refused for what they are -/
theorem createOfSpecs_cases (db : Database) (name : String) (specs : List ColumnSpec) :
    (db.Creatable name specs ∧ ∃ t, t.New name specs ∧
        db.createOfSpecs name specs = .ok { db with tables := db.tables ++ [(name, t)] }) ∨
      ¬ db.Creatable name specs ∧
        ∃ fault, db.createOfSpecs name specs = .error (.schema fault) := by
  unfold createOfSpecs
  rw [creatable_iff]
  rcases ColumnDef.ofSpecs_cases specs with ⟨hspecs, hread⟩ | ⟨hspecs, fault, hread⟩
  · rw [hread]
    dsimp only
    rcases create_cases db name (specs.map ColumnSpec.meaning) with
      ⟨hmake, hcreate⟩ | ⟨hmake, fault, hcreate⟩
    · exact Or.inl ⟨⟨hspecs, hmake⟩, _, Table.new_ofSchema specs name, hcreate⟩
    · exact Or.inr ⟨fun h => hmake h.2, fault, hcreate⟩
  · rw [hread]
    exact Or.inr ⟨fun h => hspecs h.1, fault, rfl⟩

end

/-- a table is created exactly if its name is free, every column is written with the words of
constraints, there is a column, no name stands twice and one primary key at most; it is the table
that is asked for, and the others stay as they are. Otherwise the schema is at fault, and nothing
changes -/
theorem createOfSpecs_exact (db : Database) (name : String) (specs : List ColumnSpec) :
    ((∃ r, (db.apply (.createOfSpecs name specs)).answer = .ok r) ↔ db.Creatable name specs) ∧
      (db.Creatable name specs → ∃ db' t, db.apply (.createOfSpecs name specs) = .ok .done db' ∧
        db'.table? name = some t ∧ t.New name specs ∧ db'.name = db.name ∧
        ∀ other, other ≠ name → db'.table? other = db.table? other) ∧
      (¬ db.Creatable name specs →
        ∃ fault, db.apply (.createOfSpecs name specs) = .fail (.schema fault) db) := by
  rcases createOfSpecs_cases db name specs with ⟨hmake, t, hnew, hcreate⟩ | ⟨hmake, fault, hcreate⟩
  · have happly : db.apply (.createOfSpecs name specs)
        = .ok .done { db with tables := db.tables ++ [(name, t)] } := by
      show (Outcome.ofExcept (db.createOfSpecs name specs) db).map _ = _
      rw [hcreate]
      rfl
    refine ⟨⟨fun _ => hmake, fun _ => ⟨.done, by rw [happly]; rfl⟩⟩,
      fun _ => ⟨_, t, happly, ?_, hnew, rfl, fun other hother => ?_⟩, fun h => absurd hmake h⟩
    · rw [table?_append, hmake.free, if_pos rfl]
      rfl
    · rw [table?_append, if_neg hother, Option.or_none]
  · have happly : db.apply (.createOfSpecs name specs) = .fail (.schema fault) db := by
      show (Outcome.ofExcept (db.createOfSpecs name specs) db).map _ = _
      rw [hcreate]
      rfl
    refine ⟨⟨fun ⟨r, hr⟩ => ?_, fun h => absurd h hmake⟩, fun h => absurd h hmake,
      fun _ => ⟨fault, happly⟩⟩
    rw [happly] at hr
    cases hr

/-- a key with its words last and in small letters, a column that is unique twice, and one without
constraints -/
def tagColumns : List ColumnSpec :=
  [⟨"id", .int, ["unique", "Primary", "key"]⟩, ⟨"tag", .text, []⟩,
    ⟨"mail", .text, ["UNIQUE", "unique"]⟩]

/-- the words of a key the wrong way round -/
def reversedKey : List ColumnSpec := [⟨"id", .int, ["KEY", "PRIMARY"]⟩]

theorem createOfSpecs_exact_tags :
    users.Creatable "tags" tagColumns ∧
      (∃ db' t, users.apply (.createOfSpecs "tags" tagColumns) = .ok .done db' ∧
        db'.table? "tags" = some t ∧
        t.schema.columns = [⟨"id", .int, true, true⟩, ⟨"tag", .text, false, false⟩,
          ⟨"mail", .text, false, true⟩] ∧
        t.rows = [] ∧ t.indexes.map (·.column) = ["id", "mail"] ∧
        db'.table? "users" = users.table? "users") ∧
      ∃ fault, users.apply (.createOfSpecs "notes" reversedKey) = .fail (.schema fault) users := by
  obtain ⟨hiff, hcreate, -⟩ := createOfSpecs_exact users "tags" tagColumns
  obtain ⟨hiff', -, hrefuse⟩ := createOfSpecs_exact users "notes" reversedKey
  have hmake : users.Creatable "tags" tagColumns := hiff.1 ⟨.done, by decide +kernel⟩
  have hnot : ¬ users.Creatable "notes" reversedKey := by
    intro h
    obtain ⟨r, hr⟩ := hiff'.2 h
    have herror : (users.apply (.createOfSpecs "notes" reversedKey)).answer
        = .error (.schema (.unknownConstraint "KEY" "id")) := by decide +kernel
    rw [herror] at hr
    cases hr
  obtain ⟨db', t, happly, ht, hnew, -, hother⟩ := hcreate hmake
  refine ⟨hmake, ⟨db', t, happly, ht, ?_, hnew.rows, ?_, hother "users" (by decide)⟩, hrefuse hnot⟩
  · rw [hnew.columns]
    decide +kernel
  · rw [hnew.indexed]
    decide +kernel

end Database

end TableStore
