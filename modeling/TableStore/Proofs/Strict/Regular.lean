import TableStore.Proofs.Database.Creation
import TableStore.Proofs.Strict.Query

/-!
# Answers that are no internal errors

* `Regular`               the answer is none;
* `Table.regular_accept`, `regular_plan`, `regular_predicate`   the checks before a change, and
                          before a search, fail for reasons that the user can mend;
* `Stores.regular_call`, `regular_find`, `Join.regular_ofTables`   and after them nothing fails.
-/

namespace TableStore

open Sql

def Error.isInternal : Error → Bool
  | internal _ => true
  | _ => false

/-- the answer is no internal error -/
def Regular {α : Type} (r : Except Error α) : Prop := ∀ e, r = .error e → e.isInternal = false

section
variable {α β : Type} {r : Except Error α} {e : Error}

theorem regular_ok (a : α) : Regular (.ok a : Except Error α) := fun _ h => nomatch h

theorem regular_error (h : e.isInternal = false) : Regular (.error e : Except Error α) := by
  rintro _ ⟨⟩
  exact h

/-- the same failure as one of a regular answer -/
theorem Regular.of_error (h : Regular r) (he : r = .error e) :
    Regular (.error e : Except Error β) := regular_error (h e he)

theorem Regular.map (h : Regular r) (f : α → β) : Regular (r.map f) := by
  cases r with
  | error e => exact h.of_error rfl
  | ok a => exact regular_ok _

theorem Regular.ofExcept (h : Regular r) (a : α) : Regular (Outcome.ofExcept r a).answer := by
  cases r with
  | error e => exact h.of_error rfl
  | ok _ => exact regular_ok _

end

/-! ## values and rows -/

theorem ColumnDef.regular_coerce (d : ColumnDef) (v : Value) : Regular (d.coerce v) := by
  unfold coerce
  split
  · exact regular_ok _
  · exact regular_error rfl

theorem ColumnDef.regular_prepare (d : ColumnDef) (v : Value) : Regular (d.prepare v) := by
  rw [d.prepare_eq_coerce]
  exact d.regular_coerce v

theorem Row.regular_place (columns : List String) (given : List (Option Value))
    (pairs : List (String × Value)) : Regular (place columns given pairs) := by
  induction pairs generalizing given with
  | nil => exact regular_ok _
  | cons e pairs ih =>
    unfold place
    split
    · exact regular_error rfl
    · split
      · exact regular_error rfl
      · exact ih _

theorem Row.regular_ofPairs (columns : List String) (pairs : List (String × Value)) :
    Regular (ofPairs columns pairs) := by
  unfold ofPairs
  split
  · rename_i e he
    exact (regular_place _ _ _).of_error he
  · exact regular_ok _

namespace Table

section
variable (t : Table)

/-! ## the checks before a change -/

theorem regular_prepareAll (ds : List ColumnDef) (vs : List Value) :
    Regular (prepareAll ds vs) := by
  induction ds generalizing vs with
  | nil => exact regular_ok _
  | cons d ds ih =>
    cases vs with
    | nil => exact regular_ok _
    | cons v vs =>
      unfold prepareAll
      split
      · rename_i e he
        exact (d.regular_prepare v).of_error he
      · exact (ih vs).map _

theorem regular_taken? {ds : List ColumnDef} {vs : List Value} {e : Error}
    (h : t.taken? ds vs = some e) : Regular (.error e : Except Error (List Value)) := by
  induction ds generalizing vs with
  | nil => cases h
  | cons d ds ih =>
    cases vs with
    | nil => cases h
    | cons v vs =>
      unfold taken? at h
      split at h
      · split at h
        · cases h
          exact regular_error rfl
        · exact ih h
      · exact ih h

theorem regular_accept (pairs : List (String × Value)) : Regular (t.accept pairs) := by
  unfold accept
  split
  · rename_i e he
    exact (Row.regular_ofPairs _ _).of_error he
  · split
    · rename_i e he
      unfold lacksKey? at he
      split at he
      · cases he
      · split at he
        · cases he
          exact regular_error rfl
        · cases he
    · split
      · rename_i e he
        exact (regular_prepareAll _ _).of_error he
      · split
        · rename_i e he
          exact t.regular_taken? he
        · exact regular_ok _

theorem regular_predicate (k : Condition) : Regular (t.predicate k) := by
  unfold predicate
  split
  · exact regular_error rfl
  · split
    · exact (ColumnDef.regular_coerce _ _).map _
    · exact regular_error rfl

theorem regular_mapM_predicate (condition : Option Condition) :
    Regular (condition.mapM t.predicate) := by
  cases condition with
  | none => exact regular_ok _
  | some k =>
    rw [mapM_predicate_some]
    exact (t.regular_predicate k).map _

theorem regular_assignments (done : List Assignment) (pairs : List (String × Value)) :
    Regular (t.assignments done pairs) := by
  induction pairs generalizing done with
  | nil => exact regular_ok _
  | cons e pairs ih =>
    unfold assignments
    split
    · split
      · exact regular_error rfl
      · split
        · rename_i e he
          exact (ColumnDef.regular_prepare _ _).of_error he
        · split
          · exact regular_error rfl
          · exact ih _
    · exact regular_error rfl

theorem regular_conflict? {matched : List Nat} {a : Assignment} {e : Error}
    (h : t.conflict? matched a = some e) :
    Regular (.error e : Except Error (List Assignment × Option Predicate)) := by
  unfold conflict? at h
  split at h
  · cases h
  · split at h
    · cases h
    · dsimp only at h
      split at h
      · cases h
        exact regular_error rfl
      · cases h

theorem regular_plan (pairs : List (String × Value)) (condition : Option Condition) :
    Regular (t.plan pairs condition) := by
  unfold plan
  split
  · rename_i e he
    exact (t.regular_assignments _ _).of_error he
  · split
    · rename_i e he
      exact (t.regular_mapM_predicate _).of_error he
    · split
      · rename_i e he
        obtain ⟨a, -, ha⟩ := List.exists_of_findSome?_eq_some he
        exact t.regular_conflict? ha
      · exact regular_ok _

end

/-! ## changes and searches -/

section
variable {t : Table} {c : Contents}

theorem Stores.regular_insert (h : t.Stores c) (pairs : List (String × Value)) :
    Regular (t.insert pairs).answer := by
  rcases insert_cases h pairs with ⟨e, he, hfail⟩ | ⟨values, u, -, hok, -⟩
  · rw [hfail]
    exact (t.regular_accept pairs).of_error he
  · rw [hok]
    exact regular_ok _

theorem Stores.regular_update (h : t.Stores c) (pairs : List (String × Value))
    (condition : Option Condition) : Regular (t.update pairs condition).answer := by
  rcases update_cases h pairs condition with ⟨e, he, hfail⟩ | ⟨as, p, u, -, hok, -⟩
  · rw [hfail]
    exact (t.regular_plan pairs condition).of_error he
  · rw [hok]
    exact regular_ok _

theorem Stores.regular_delete (h : t.Stores c) (condition : Option Condition) :
    Regular (t.delete condition).answer := by
  rcases delete_cases h condition with ⟨e, he, hfail⟩ | ⟨p, u, -, hok, -⟩
  · rw [hfail]
    exact (t.regular_mapM_predicate condition).of_error he
  · rw [hok]
    exact regular_ok _

theorem Stores.regular_call (h : t.Stores c) (k : Call) : Regular (t.call k).answer := by
  cases k with
  | insert pairs => exact (h.regular_insert pairs).map _
  | update pairs condition => exact (h.regular_update pairs condition).map _
  | delete condition => exact (h.regular_delete condition).map _

theorem regular_scan (t : Table) (condition : Option Condition) : Regular (t.scan condition) := by
  cases condition with
  | none => exact regular_ok _
  | some k => exact (t.regular_predicate k).map _

theorem regular_find (t : Table) (condition : Option Condition) : Regular (t.find condition) := by
  cases condition with
  | none => exact regular_ok _
  | some k => exact (t.regular_predicate k).map _

theorem regular_resolveAll (t : Table) (refs : List ColumnRef) : Regular (t.resolveAll refs) := by
  induction refs with
  | nil => exact regular_ok _
  | cons ref refs ih =>
    unfold resolveAll
    split
    · exact regular_error rfl
    · exact ih.map _

theorem regular_project (t : Table) (p : Projection) (rows : List Row) :
    Regular (t.project p rows) := by
  cases p with
  | all => exact regular_ok _
  | columns refs => exact (t.regular_resolveAll refs).map _

end

end Table

/-! ## joins -/

namespace Layout

theorem regular_resolve (y : Layout) (ref : ColumnRef) : Regular (y.resolve ref) := by
  unfold resolve
  split
  · exact regular_ok _
  · exact regular_error rfl

theorem regular_resolveAll (y : Layout) (refs : List ColumnRef) : Regular (y.resolveAll refs) := by
  induction refs with
  | nil => exact regular_ok _
  | cons ref refs ih =>
    unfold resolveAll
    split
    · rename_i e he
      exact (y.regular_resolve ref).of_error he
    · exact ih.map _

end Layout

namespace Join

theorem regular_columns (l r : Table) (j : JoinClause) : Regular (columns l r j) := by
  unfold columns
  split
  · exact regular_ok _
  · split
    · exact regular_ok _
    · exact regular_error rfl

/-- a field that a condition means has a type and a label -/
theorem regular_filter {y : Layout} (htypes : y.types.length = y.labels.length)
    (rows : List (List Value)) (condition : Option Condition) :
    Regular (filter y rows condition) := by
  unfold filter
  split
  · exact regular_ok _
  · split
    · rename_i e he
      exact (y.regular_resolve _).of_error he
    · rename_i i hi
      have hlabel := Strict.lt_of_resolve hi
      rw [List.getElem?_eq_getElem hlabel, List.getElem?_eq_getElem (htypes ▸ hlabel)]
      dsimp only
      split
      · exact regular_error rfl
      · exact regular_ok _

theorem regular_project (y : Layout) (rows : List (List Value)) (p : Projection) :
    Regular (project y rows p) := by
  cases p with
  | all => exact regular_ok _
  | columns refs => exact (y.regular_resolveAll refs).map _

theorem regular_ofTables (l r : Table) (q : Select) (j : JoinClause) :
    Regular (ofTables l r q j) := by
  unfold ofTables
  split
  · exact regular_error rfl
  · split
    · rename_i e he
      exact (regular_columns l r j).of_error he
    · rename_i left right hcolumns
      obtain ⟨-, hright⟩ := Strict.lt_of_columns hcolumns
      have htypes : (Layout.ofTables l r).types.length = (Layout.ofTables l r).labels.length :=
        (Strict.length_types l r).trans (Strict.length_labels l r).symm
      rw [List.getElem?_eq_getElem hright]
      dsimp only
      split
      · rename_i e he
        exact (regular_filter htypes _ _).of_error he
      · exact regular_project _ _ _

end Join

/-! ## databases -/

namespace Database

variable {db : Database}

theorem regular_table (db : Database) (name : String) : Regular (db.table name) := by
  unfold table
  split
  · exact regular_ok _
  · exact regular_error rfl

theorem regular_select (db : Database) (q : Select) : Regular (db.select q) := by
  unfold select
  split
  · unfold Join.run
    split
    · rename_i e he
      exact (db.regular_table _).of_error he
    · split
      · rename_i e he
        exact (db.regular_table _).of_error he
      · exact Join.regular_ofTables _ _ _ _
  · split
    · rename_i e he
      exact (db.regular_table _).of_error he
    · split
      · rename_i e he
        exact (Table.regular_find _ _).of_error he
      · exact Table.regular_project _ _ _

theorem regular_add (db : Database) (t : Table) : Regular (db.add t) := by
  unfold add
  split
  · exact regular_error rfl
  · exact regular_ok _

theorem regular_create (db : Database) (name : String) (columns : List ColumnDef) :
    Regular (db.create name columns) := by
  rcases create_cases db name columns with ⟨-, h⟩ | ⟨-, fault, h⟩
  · rw [h]
    exact regular_ok _
  · rw [h]
    exact regular_error rfl

theorem regular_createOfSpecs (db : Database) (name : String) (columns : List ColumnSpec) :
    Regular (db.createOfSpecs name columns) := by
  rcases createOfSpecs_cases db name columns with ⟨-, t, -, h⟩ | ⟨-, fault, h⟩
  · rw [h]
    exact regular_ok _
  · rw [h]
    exact regular_error rfl

end Database

end TableStore
