import Mathlib.Data.Finset.Sort
import TableStore.Proofs.Comparison
import TableStore.Proofs.Database.Search

/-!
# How the operators divide a table

With one literal the operators find sets of positions, and these are told by the cells alone.

* `Table.Partition`             what is equal and what is not make up the table; with a value for the
                                literal, what is less, equal or greater makes up the cells that are
                                not empty, and with none nothing stands in an order to it;
* `Table.found`                 the positions that an operator finds, as a set;
* `Stores.found_eq_union`       two operators find what a third one finds, if they say so of each cell;
* `Stores.partition`            the six sets divide the table;
* `Database.find_partition`     and they are what searches in a table that can be reached answer with.
-/

namespace TableStore

namespace Table

/-- how the sets of positions that the operators find with a literal divide a table -/
structure Partition (t : Table) (column : String) (literal : Value)
    (found : Comparison → Finset Nat) : Prop where
  equal_notEqual : Disjoint (found .equal) (found .notEqual)
  all : found .equal ∪ found .notEqual = Finset.range t.rowCount
  less_equal : literal ≠ .null → Disjoint (found .less) (found .equal)
  less_greater : literal ≠ .null → Disjoint (found .less) (found .greater)
  equal_greater : literal ≠ .null → Disjoint (found .equal) (found .greater)
  filled : literal ≠ .null → found .less ∪ found .equal ∪ found .greater
    = (Finset.range t.rowCount).filter fun pos => t.cell? column pos ≠ some .null
  lessEqual : literal ≠ .null → found .lessEqual = found .less ∪ found .equal
  greaterEqual : literal ≠ .null → found .greaterEqual = found .greater ∪ found .equal
  unordered : literal = .null → ∀ op, op ≠ .equal → op ≠ .notEqual → found op = ∅

/-- the positions whose cell in a column stands in a relation to a value -/
def found (t : Table) (column : String) (v : Value) (op : Comparison) : Finset Nat :=
  (t.positionsWhere column op v).toFinset

variable {t : Table} {c : Contents}

theorem sort_found (t : Table) (column : String) (v : Value) (op : Comparison) :
    (t.found column v op).sort = t.positionsWhere column op v := by
  have hlt := t.positionsWhere_ascending column op v
  exact (List.toFinset_sort (· ≤ ·) (hlt.imp Nat.ne_of_lt)).2 (hlt.imp Nat.le_of_lt)

theorem mem_found {column : String} {v : Value} {op : Comparison} {pos : Nat} :
    pos ∈ t.found column v op ↔
      pos < t.rowCount ∧ (t.cell? column pos).any (op.holds · v) = true := by
  rw [found, List.mem_toFinset, mem_positionsWhere]

section
variable {d : ColumnDef} {v w : Value}

/-- a row has a cell of the type of the column -/
theorem Stores.exists_cell? (h : t.Stores c) (hd : d ∈ t.schema.columns) {pos : Nat}
    (hpos : pos < t.rowCount) : ∃ u, t.cell? d.name pos = some u ∧ d.type.holds u = true := by
  obtain ⟨j, hj⟩ := List.mem_iff_getElem?.1 hd
  rw [h.schema] at hj
  rw [h.lays.count] at hpos
  have hrow := List.getElem?_eq_getElem hpos
  have hfits := h.admits.fits _ (List.mem_of_getElem? hrow)
  have hcell := List.getElem?_eq_getElem (hfits.lt_length hj)
  refine ⟨_, ?_, hfits.typed j d _ hj hcell⟩
  rw [h.cell?_eq hj, getElem?_columnOf, hrow, Option.map_some, hcell, Option.getD_some]

/-- what operators find is compared cell by cell -/
theorem Stores.found_eq_union (h : t.Stores c) (hd : d ∈ t.schema.columns) {op op₁ op₂ : Comparison}
    (hholds : ∀ u, d.type.holds u = true → op.holds u v = (op₁.holds u v || op₂.holds u v)) :
    t.found d.name v op = t.found d.name v op₁ ∪ t.found d.name v op₂ := by
  ext pos
  rw [Finset.mem_union, mem_found, mem_found, mem_found]
  by_cases hpos : pos < t.rowCount
  · obtain ⟨u, hcell, htype⟩ := h.exists_cell? hd hpos
    simp [hpos, hcell, hholds u htype]
  · simp [hpos]

theorem Stores.disjoint_found (h : t.Stores c) (hd : d ∈ t.schema.columns) {op₁ op₂ : Comparison}
    (hholds : ∀ u, d.type.holds u = true → (op₁.holds u v && op₂.holds u v) = false) :
    Disjoint (t.found d.name v op₁) (t.found d.name v op₂) := by
  rw [Finset.disjoint_left]
  intro pos h₁ h₂
  obtain ⟨hpos, h₁⟩ := mem_found.1 h₁
  obtain ⟨-, h₂⟩ := mem_found.1 h₂
  obtain ⟨u, hcell, htype⟩ := h.exists_cell? hd hpos
  rw [hcell, Option.any_some] at h₁ h₂
  have hfalse := hholds u htype
  rw [h₁, h₂] at hfalse
  cases hfalse

/-- the sets that the operators find divide the table -/
theorem Stores.partition (h : t.Stores c) (hd : d ∈ t.schema.columns)
    (hw : d.type.coerce? v = some w) : t.Partition d.name v (t.found d.name w) := by
  have hholds := holds_of_coerce? hw
  have hvalue : v ≠ .null → w ≠ .null := fun hne he => hne (coerce?_eq_some_null_iff.1 (he ▸ hw))
  have hapart : v ≠ .null → ∀ op ∈ [.less, .equal, .greater], ∀ op' ∈ [.less, .equal, .greater],
      op ≠ op' → Disjoint (t.found d.name w op) (t.found d.name w op') :=
    fun hne op hop op' hop' hdiff => h.disjoint_found hd fun u hu =>
      Comparison.holds_not_both hu hholds (hvalue hne) op hop op' hop' hdiff
  refine
    { equal_notEqual := h.disjoint_found hd fun u _ => by simp [Comparison.holds]
      all := ?_
      less_equal := fun hne => hapart hne _ (by simp) _ (by simp) (by simp)
      less_greater := fun hne => hapart hne _ (by simp) _ (by simp) (by simp)
      equal_greater := fun hne => hapart hne _ (by simp) _ (by simp) (by simp)
      filled := fun hne => ?_
      lessEqual := fun hne => h.found_eq_union hd fun u hu =>
        Comparison.holds_lessEqual hu hholds (hvalue hne)
      greaterEqual := fun hne => h.found_eq_union hd fun u hu =>
        Comparison.holds_greaterEqual hu hholds (hvalue hne)
      unordered := fun hnull op hop hop' => ?_ }
  · ext pos
    rw [Finset.mem_union, mem_found, mem_found, Finset.mem_range, ← and_or_left]
    refine and_iff_left_of_imp fun hpos => ?_
    obtain ⟨u, hcell, -⟩ := h.exists_cell? hd hpos
    simp [hcell, Comparison.holds, em]
  · ext pos
    rw [Finset.mem_union, Finset.mem_union, mem_found, mem_found, mem_found, Finset.mem_filter,
      Finset.mem_range, ← and_or_left, ← and_or_left]
    refine and_congr_right fun hpos => ?_
    obtain ⟨u, hcell, hu⟩ := h.exists_cell? hd hpos
    have hone := Comparison.holds_one hu hholds (hvalue hne)
    rw [Bool.eq_iff_iff] at hone
    simpa [hcell] using hone
  · refine Finset.eq_empty_of_forall_notMem fun pos hpos => ?_
    obtain ⟨hlt, hpos⟩ := mem_found.1 hpos
    obtain ⟨u, hcell, -⟩ := h.exists_cell? hd hlt
    obtain rfl : w = .null := by
      rw [coerce?_eq_some_null_iff.2 hnull] at hw
      exact (Option.some.inj hw).symm
    rw [hcell, Option.any_some, Comparison.holds_null_right hop hop'] at hpos
    cases hpos

end

end Table

namespace Database

variable {db : Database}

/-- in a table that can be reached the searches for a column and a literal, one with each operator,
answer with the rows at positions that divide the table -/
theorem find_partition (h : db.Reachable) {e : String × Table} (he : e ∈ db.tables)
    {ref : ColumnRef} {d : ColumnDef} {v w : Value} (hd : d ∈ e.2.schema.columns)
    (hname : ref.columnIn? e.2.name = some d.name) (hw : d.type.coerce? v = some w) :
    ∃ found : Comparison → Finset Nat,
      (∀ op, ∃ rows, e.2.FindsAt ⟨ref, op, v⟩ (found op).sort rows) ∧
        e.2.Partition d.name v found := by
  obtain ⟨c, hstores, -⟩ := h.sound.tables e he
  refine ⟨e.2.found d.name w, fun op => ?_, hstores.partition hd hw⟩
  rw [Table.sort_found]
  exact hstores.findsAt_of_column hd hname hw

/-- users whose address stands in a relation to the text `7` -/
def mailAgainst (op : Comparison) : Condition := ⟨⟨some "users", "mail"⟩, op, .int 7⟩

/-- the address that is missing is different from the text, and neither less nor greater -/
theorem find_partition_users :
    ∃ t found, users.table? "users" = some t ∧
      (∀ op, ∃ rows, t.FindsAt (mailAgainst op) (found op).sort rows) ∧
      t.Partition "mail" (.int 7) found ∧ found .notEqual = {0, 1} ∧ found .greater = {0} := by
  have hrun : ∃ t ∈ users.table? "users", ⟨"mail", .text, false, true⟩ ∈ t.schema.columns ∧
      t.name = "users" ∧ t.positions (mailAgainst .notEqual) = .ok [0, 1] ∧
      t.positions (mailAgainst .greater) = .ok [0] := by
    decide +kernel
  obtain ⟨t, ht, hcolumn, hname, hother, hgreater⟩ := hrun
  have hmem : ("users", t) ∈ users.tables := Keyed.mem_of_lookup ht
  have hmail : (⟨some "users", "mail"⟩ : ColumnRef).columnIn? t.name = some "mail" := by
    rw [hname]
    rfl
  have hseven : DataType.text.coerce? (.int 7) = some (.text "7") := by decide +kernel
  obtain ⟨found, hfinds, hpartition⟩ := find_partition reachable_users hmem hcolumn hmail hseven
  have hfound {op : Comparison} {ps : List Nat} (hps : t.positions (mailAgainst op) = .ok ps) :
      found op = ps.toFinset := by
    obtain ⟨rows, hrows⟩ := hfinds op
    rw [← Except.ok.inj (hrows.positions.symm.trans hps), Finset.sort_toFinset]
  exact ⟨t, found, ht, hfinds, hpartition, hfound hother, hfound hgreater⟩

end Database

end TableStore
