import TableStore.Proofs.Table.Delete
import TableStore.Proofs.Table.Insert
import TableStore.Proofs.Table.Update

/-!
# Tables built by their own calls

* `Table.call`        an insertion, an update or a deletion;
* `Table.Built`       a new table after any number of calls, whether they answered or failed;
* `Table.call_atomic`   a call fails and changes nothing, or leaves a table that stores rows under
                      the same name and schema;
* `Built.stores`      so every built table stores some rows.
-/

namespace TableStore

namespace Table

/-- a change that a table makes by itself -/
inductive Call where
  | insert (pairs : List (String × Value))
  | update (pairs : List (String × Value)) (condition : Option Condition)
  | delete (condition : Option Condition)
  deriving DecidableEq

/-- the answer to a call -/
inductive Effect where
  | row (r : Row)
  | count (n : Nat)
  deriving DecidableEq

/-- makes a change -/
def call (t : Table) : Call → Outcome Table Effect
  | .insert pairs => (t.insert pairs).map .row
  | .update pairs condition => (t.update pairs condition).map .count
  | .delete condition => (t.delete condition).map .count

/-- a new table after any calls, answered or failed -/
inductive Built : Table → Prop where
  | ofColumns {name : String} {columns : List ColumnDef} {t : Table}
      (h : Table.ofColumns name columns = .ok t) : Built t
  | call {t : Table} (h : Built t) (c : Call) : Built (t.call c).state

variable {t : Table} {c : Contents}

/-- the table stores rows under this name and schema -/
def Keeps (name : String) (s : Schema) (t : Table) : Prop := ∃ rows, t.Stores ⟨name, s, rows⟩

theorem stores_ofColumns {name : String} {columns : List ColumnDef}
    (h : ofColumns name columns = .ok t) :
    ∃ s : Schema, s.columns = columns ∧ t.Stores ⟨name, s, []⟩ := by
  unfold ofColumns at h
  cases hs : Schema.ofColumns columns with
  | error e =>
    rw [hs] at h
    cases h
  | ok s =>
    rw [hs] at h
    cases h
    obtain ⟨hcolumns, hv⟩ := Schema.ofColumns_eq_ok_iff.1 hs
    exact ⟨s, hcolumns, stores_ofSchema name hv⟩

/-! ## one call -/

theorem insert_atomic (h : t.Stores c) (pairs : List (String × Value)) :
    (t.insert pairs).Atomic t (Keeps c.name c.schema) := by
  rcases insert_cases h pairs with ⟨e, -, hfail⟩ | ⟨values, u, -, hok, hstores⟩
  · exact Or.inl ⟨e, hfail⟩
  · exact Or.inr ⟨_, u, hok, _, hstores⟩

theorem update_atomic (h : t.Stores c) (pairs : List (String × Value))
    (condition : Option Condition) :
    (t.update pairs condition).Atomic t (Keeps c.name c.schema) := by
  rcases update_cases h pairs condition with ⟨e, -, hfail⟩ | ⟨as, p, u, -, hok, hstores⟩
  · exact Or.inl ⟨e, hfail⟩
  · exact Or.inr ⟨_, u, hok, _, hstores⟩

theorem delete_atomic (h : t.Stores c) (condition : Option Condition) :
    (t.delete condition).Atomic t (Keeps c.name c.schema) := by
  rcases delete_cases h condition with ⟨e, -, hfail⟩ | ⟨p, u, -, hok, hstores⟩
  · exact Or.inl ⟨e, hfail⟩
  · exact Or.inr ⟨_, u, hok, _, hstores⟩

/-- a call fails and changes nothing, or leaves a table that stores rows -/
theorem call_atomic (h : t.Stores c) (k : Call) :
    (t.call k).Atomic t (Keeps c.name c.schema) := by
  cases k with
  | insert pairs => exact (insert_atomic h pairs).map _
  | update pairs condition => exact (update_atomic h pairs condition).map _
  | delete condition => exact (delete_atomic h condition).map _

/-! ## built tables -/

theorem Built.stores (h : t.Built) : ∃ c, t.Stores c := by
  induction h with
  | ofColumns h =>
    obtain ⟨s, -, hstores⟩ := stores_ofColumns h
    exact ⟨_, hstores⟩
  | call _ k ih =>
    obtain ⟨c, hstores⟩ := ih
    obtain ⟨rows, hstores'⟩ := (call_atomic hstores k).state ⟨c.rows, hstores⟩
    exact ⟨_, hstores'⟩

end Table

end TableStore
