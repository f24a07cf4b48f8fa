import Mathlib.Data.List.InsertIdx
import TableStore.Proofs.Table.Find
import TableStore.Table.Delete

/-!
# What deleting rows does

* `Table.removeMatching_ok`   going backwards, the selected rows go and the others stay in order;
* `Table.rebuildAll_ok`       indexes can be rebuilt from rows that the schema admits;
* `Table.delete_cases`        a deletion fails before it changes anything, or leaves exactly the
                              rows that were not selected.
-/

namespace TableStore

namespace Table

section
variable {t : Table} {rows : List (List Value)}

/-! ## removing rows -/

theorem removeAll_ok (pos : Nat) (cs : List Column)
    (h : ∀ c ∈ cs, ∃ c', c.remove pos = .ok c') :
    ∃ cs', removeAll pos cs = .ok () cs' ∧ cs'.length = cs.length ∧
      ∀ (j : Nat) (c' : Column), cs'[j]? = some c' →
        ∃ c, cs[j]? = some c ∧ c.remove pos = .ok c' := by
  induction cs with
  | nil => exact ⟨[], rfl, rfl, by simp⟩
  | cons c cs ih =>
    rw [List.forall_mem_cons] at h
    obtain ⟨c', hc⟩ := h.1
    obtain ⟨cs', hcs, hlen, hget⟩ := ih h.2
    refine ⟨c' :: cs', ?_, ?_, fun j d hd => ?_⟩
    · unfold removeAll
      rw [hc]
      simp only [hcs, Outcome.within_ok]
    · rw [List.length_cons, List.length_cons, hlen]
    · cases j with
      | zero =>
        cases hd
        exact ⟨c, rfl, hc⟩
      | succ j => exact hget j d hd

theorem columnOf_eraseIdx (j : Nat) (rows : List (List Value)) (pos : Nat) :
    columnOf j (rows.eraseIdx pos) = (columnOf j rows).eraseIdx pos :=
  (List.eraseIdx_map _ _ _).symm

/-- a row that is there can be removed from every column -/
theorem removeRow_ok (h : t.Lays rows) {pos : Nat} (hpos : pos < rows.length) :
    ∃ cs, t.removeRow pos = .ok () { t with columns := cs, rowCount := t.rowCount - 1 } ∧
      Lays { t with columns := cs, rowCount := t.rowCount - 1 } (rows.eraseIdx pos) := by
  have hremove {j : Nat} {c : Column} (hc : t.columns[j]? = some c) :
      ∃ d c', t.schema.columns[j]? = some d ∧ c.remove pos = .ok c' ∧
        c'.Reads d.type ((columnOf j rows).eraseIdx pos) := by
    obtain ⟨d, hd, hreads⟩ := h.column hc
    have hlt : pos < (columnOf j rows).length := by rwa [length_columnOf]
    obtain ⟨c', hok, hreads'⟩ := hreads.remove hlt
    exact ⟨d, c', hd, hok, hreads'⟩
  obtain ⟨cs, hcs, hlen, hget⟩ := removeAll_ok pos t.columns fun c hc => by
    obtain ⟨j, hj⟩ := List.mem_iff_getElem?.1 hc
    obtain ⟨-, c', -, hok, -⟩ := hremove hj
    exact ⟨c', hok⟩
  refine ⟨cs, ?_, ⟨?_, hlen.trans h.width, fun j d c' hd hc' => ?_⟩⟩
  · unfold removeRow
    rw [hcs, Outcome.within_ok, Outcome.andThen_ok]
  · rw [List.length_eraseIdx_of_lt hpos, ← h.count]
  · obtain ⟨c, hc, hok⟩ := hget j c' hc'
    obtain ⟨e, c'', he, hok', hreads⟩ := hremove hc
    rw [hok] at hok'
    cases hok'
    rw [show t.schema.columns[j]? = some d from hd] at he
    cases he
    rw [columnOf_eraseIdx]
    exact hreads

/-- below a position the selected rows go; from it on every row stays -/
theorem removeMatching_ok (p : Predicate) (pos : Nat) (h : t.Lays rows)
    (hlen : ∀ row ∈ rows, row.length = t.schema.columns.length) (hpos : pos ≤ rows.length) :
    ∃ cs n, removeMatching p pos t
        = .ok ((rows.take pos).countP p.accepts) { t with columns := cs, rowCount := n } ∧
      Lays { t with columns := cs, rowCount := n }
        ((rows.take pos).filter (!p.accepts ·) ++ rows.drop pos) := by
  induction pos generalizing t rows with
  | zero => exact ⟨t.columns, t.rowCount, rfl, h⟩
  | succ pos ih =>
    have hlt : pos < rows.length := hpos
    have hrow := List.getElem?_eq_getElem hlt
    have htake : rows.take (pos + 1) = rows.take pos ++ [rows[pos]] :=
      (List.take_append_getElem hlt).symm
    unfold removeMatching
    rw [h.satisfies_eq hlen p hrow, htake, List.countP_append, List.filter_append]
    cases hp : p.accepts rows[pos] with
    | true =>
      obtain ⟨cs, hremove, hlays⟩ := removeRow_ok h hlt
      have hsub : (rows.eraseIdx pos).Sublist rows := List.eraseIdx_sublist _ _
      have hle : pos ≤ (rows.eraseIdx pos).length := by
        rw [List.length_eraseIdx_of_lt hlt]
        omega
      have hlen' : (rows.take pos).length = pos := List.length_take_of_le (Nat.le_of_lt hlt)
      have htake' : (rows.eraseIdx pos).take pos = rows.take pos := by
        rw [List.eraseIdx_eq_take_drop_succ, List.take_left' hlen']
      have hdrop' : (rows.eraseIdx pos).drop pos = rows.drop (pos + 1) := by
        rw [List.eraseIdx_eq_take_drop_succ, List.drop_left' hlen']
      obtain ⟨cs', n, hrest, hlays'⟩ := ih hlays (fun row hr => hlen row (hsub.subset hr)) hle
      rw [htake', hdrop'] at hlays'
      rw [htake'] at hrest
      refine ⟨cs', n, ?_, ?_⟩
      · rw [if_pos rfl, hremove, Outcome.andThen_ok, hrest, Outcome.map_ok]
        simp [hp]
      · simpa [hp] using hlays'
    | false =>
      obtain ⟨cs, n, hrest, hlays⟩ := ih h hlen (Nat.le_of_lt hlt)
      rw [List.drop_eq_getElem_cons hlt] at hlays
      refine ⟨cs, n, ?_, ?_⟩
      · rw [if_neg Bool.false_ne_true, hrest]
        simp [hp]
      · simpa [hp] using hlays

/-! ## rebuilding the indexes -/

/-- a column is read off row by row -/
theorem Lays.map_valueAt (h : t.Lays rows)
    (hlen : ∀ row ∈ rows, row.length = t.schema.columns.length) (j : Nat) :
    (List.range t.rowCount).map (t.valueAt j) = columnOf j rows := by
  refine List.ext_getElem? fun pos => ?_
  rw [List.getElem?_map, getElem?_columnOf, h.count]
  by_cases hpos : pos < rows.length
  · rw [List.getElem?_range hpos, List.getElem?_eq_getElem hpos, Option.map_some,
      Option.map_some, h.valueAt_eq hlen, List.getElem?_eq_getElem hpos, Option.bind_some]
  · have hle := Nat.le_of_not_lt hpos
    rw [List.getElem?_eq_none hle, List.getElem?_eq_none (by rwa [List.length_range])]
    rfl

theorem rebuildAll_ok (h : t.Lays rows) (hv : t.schema.Valid) (ha : t.schema.Admits rows)
    (is : List Index) (his : ∀ i ∈ is, ∃ (j : Nat) (d : ColumnDef),
      t.schema.columns[j]? = some d ∧ i.clear = .ofDef d) :
    ∃ is', t.rebuildAll is = .ok () is' ∧ is'.map (·.column) = is.map (·.column) ∧
      ∀ i' ∈ is', ∃ (j : Nat) (d : ColumnDef), t.schema.columns[j]? = some d ∧
        i'.Serves d (columnOf j rows) := by
  induction is with
  | nil => exact ⟨[], rfl, rfl, by simp⟩
  | cons i is ih =>
    rw [List.forall_mem_cons] at his
    obtain ⟨⟨j, d, hd, hclear⟩, his⟩ := his
    obtain ⟨is', hok, hnames, hserves⟩ := ih his
    have hname : i.column = d.name := congrArg (·.column) hclear
    have hunique : i.isUnique = (d.isUnique || d.isPrimaryKey) := congrArg (·.isUnique) hclear
    have hlen (row : List Value) (hr : row ∈ rows) : row.length = t.schema.columns.length :=
      (ha.fits row hr).length
    obtain ⟨i', hi', hclear', htracks⟩ := i.rebuild_tracks (columnOf j rows) fun hu =>
      ha.distinct j d hd (by rw [ColumnDef.isConstrained, Bool.or_comm, ← hunique, hu])
    refine ⟨i' :: is', ?_, ?_, ?_⟩
    · unfold rebuildAll
      rw [hname, hv.position?_eq hd]
      simp only [h.map_valueAt hlen, hi']
      show (t.rebuildAll is).within (i' :: ·) = _
      rw [hok, Outcome.within_ok]
    · have hcolumn : i'.column = i.column := congrArg (·.column) hclear'
      rw [List.map_cons, List.map_cons, hcolumn, hnames]
    · rw [List.forall_mem_cons]
      exact ⟨⟨j, d, hd, hclear'.trans hclear, htracks⟩, hserves⟩

end

/-! ## deletions -/

section
variable {t : Table} {c : Contents}

theorem stores_clear (h : t.Stores c) : t.clear.Stores { c with rows := [] } where
  name := h.name
  schema := h.schema
  valid := h.valid
  admits := c.schema.admits_nil
  lays := by
    refine ⟨rfl, (List.length_map _).trans h.lays.width, fun j d col hd hc => ?_⟩
    have hmap : (t.columns.map Column.clear)[j]? = some col := hc
    rw [List.getElem?_map] at hmap
    obtain ⟨col', hcol, rfl⟩ := Option.map_eq_some_iff.1 hmap
    exact (h.lays.columns j d col' hd hcol).clear
  indexed := by
    refine ⟨?_, fun i hi => ?_⟩
    · show (t.indexes.map Index.clear).map (·.column) = _
      rw [List.map_map]
      exact h.indexed.names
    · obtain ⟨i', hi', rfl⟩ := List.mem_map.1 hi
      obtain ⟨j, d, hd, hserves⟩ := h.indexed.serves i' hi'
      exact ⟨j, d, hd, hserves.clear, i'.tracks_clear⟩

/-- removing the selected rows and rebuilding the indexes is never refused half way -/
theorem deleteMatching_ok (h : t.Stores c) (p : Predicate) :
    ∃ u, (removeMatching p t.rowCount t).andThen (fun n u =>
        if n > 0 then u.rebuildIndexes.map fun _ => n else .ok n u)
        = .ok (c.rows.countP p.accepts) u ∧
      u.Stores { c with rows := c.rows.filter (!p.accepts ·) } := by
  obtain ⟨cs, n, hremove, hlays⟩ := removeMatching_ok p t.rowCount h.lays h.length_of_mem
    (Nat.le_of_eq h.lays.count)
  rw [h.lays.count, List.take_length, List.drop_length, List.append_nil] at hlays
  rw [h.lays.count, List.take_length] at hremove
  have hadmits : c.schema.Admits (c.rows.filter (!p.accepts ·)) :=
    h.admits.sublist List.filter_sublist
  rw [h.lays.count, hremove, Outcome.andThen_ok]
  by_cases hcount : c.rows.countP p.accepts > 0
  · obtain ⟨is, hrebuild, hnames, hserves⟩ := rebuildAll_ok hlays
      (h.schema ▸ h.valid) (h.schema ▸ hadmits) t.indexes fun i hi => by
        obtain ⟨j, d, hd, hserves⟩ := h.indexed.serves i hi
        exact ⟨j, d, h.schema ▸ hd, hserves.clear⟩
    refine ⟨{ t with columns := cs, rowCount := n, indexes := is }, ?_, h.name, h.schema, h.valid,
      hadmits, ⟨hlays.count, hlays.width, hlays.columns⟩, hnames.trans h.indexed.names, ?_⟩
    · rw [if_pos hcount]
      unfold rebuildIndexes
      rw [hrebuild, Outcome.within_ok, Outcome.map_ok]
    · intro i hi
      obtain ⟨j, d, hd, hi⟩ := hserves i hi
      exact ⟨j, d, h.schema ▸ hd, hi⟩
  · have hall : c.rows.filter (!p.accepts ·) = c.rows := by
      refine List.filter_eq_self.2 fun row hrow => ?_
      have hno := List.countP_eq_zero.1 (Nat.eq_zero_of_not_pos hcount) row hrow
      simpa using hno
    rw [if_neg hcount]
    refine ⟨_, rfl, h.name, h.schema, h.valid, hadmits, hlays, ?_⟩
    rw [hall]
    exact h.indexed

/-- a deletion fails before it changes anything, or leaves exactly the rows not selected -/
theorem delete_cases (h : t.Stores c) (condition : Option Condition) :
    (∃ e, condition.mapM t.predicate = .error e ∧ t.delete condition = .fail e t) ∨
      ∃ p u, condition.mapM t.predicate = .ok p ∧
        t.delete condition = .ok (c.rows.countP (selects p)) u ∧
        u.Stores { c with rows := c.rows.filter (!selects p ·) } := by
  cases condition with
  | none =>
    have hnone : c.rows.filter (!selects none ·) = [] := List.filter_eq_nil_iff.2 (by simp)
    have hcount : c.rows.countP (selects none) = t.rowCount := by
      rw [h.lays.count]
      exact List.countP_eq_length.2 (by simp)
    refine Or.inr ⟨none, t.clear, rfl, ?_, ?_⟩
    · rw [hcount]
      rfl
    · rw [hnone]
      exact stores_clear h
  | some condition =>
    simp only [Table.delete]
    cases hp : t.predicate condition with
    | error e => exact Or.inl ⟨e, by rw [Option.mapM_some, hp]; rfl, rfl⟩
    | ok p =>
      obtain ⟨u, hu, hstores⟩ := deleteMatching_ok h p
      exact Or.inr ⟨some p, u, by rw [Option.mapM_some, hp]; rfl, hu, hstores⟩

end

end Table

end TableStore
