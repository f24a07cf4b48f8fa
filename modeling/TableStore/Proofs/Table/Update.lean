import TableStore.Proofs.Table.Find
import TableStore.Table.Update

/-!
# What updating rows does

* `Schema.Sets`             the assignment that a named value means: to the column of that name, of
                            the value brought to its type;
* `Table.of_assignments`    checked assignments are those that the named values mean, each to a
                            column of its own;
* `Table.assign_ok`         one of them goes through where no other row of a constrained column
                            holds its value;
* `Table.assignRow_ok`      and so do all of them, in one row;
* `Table.of_conflict?`      where no conflict is found, each matching row holds the value already,
                            or only one row matches and no other one holds it;
* `Table.update_cases`      an update fails before it changes anything, or assigns to exactly the
                            selected rows.
-/

namespace TableStore

/-- the column can store the assigned value -/
def Schema.Takes (s : Schema) (a : Assignment) : Prop :=
  ∃ d, s.columns[a.column]? = some d ∧ d.type.holds a.value = true ∧
    (d.isPrimaryKey = true → a.value ≠ .null)

/-- the assignment that a named value means -/
def Schema.Sets (s : Schema) (e : String × Value) (a : Assignment) : Prop :=
  ∃ d, s.columns[a.column]? = some d ∧ d.name = e.1 ∧ d.type.coerce? e.2 = some a.value ∧
    (d.isPrimaryKey = true → a.value ≠ .null)

theorem Schema.Sets.takes {s : Schema} {e : String × Value} {a : Assignment} (h : s.Sets e a) :
    s.Takes a := by
  obtain ⟨d, hd, -, hcoerce, hkey⟩ := h
  exact ⟨d, hd, holds_of_coerce? hcoerce, hkey⟩

/-- a row after assignments -/
def assigned : List Assignment → List Value → List Value
  | [], row => row
  | a :: as, row => assigned as (row.set a.column a.value)

theorem length_assigned (as : List Assignment) (row : List Value) :
    (assigned as row).length = row.length := by
  induction as generalizing row with
  | nil => rfl
  | cons a as ih => rw [assigned, ih, List.length_set]

/-- columns that are not assigned to stay as they are -/
theorem getElem?_assigned_of_notMem {as : List Assignment} {j : Nat}
    (hj : j ∉ as.map (·.column)) (row : List Value) : (assigned as row)[j]? = row[j]? := by
  induction as generalizing row with
  | nil => rfl
  | cons a as ih =>
    rw [List.map_cons, List.mem_cons, not_or] at hj
    rw [assigned, ih hj.2, List.getElem?_set_ne (Ne.symm hj.1)]

/-- a column that is assigned to once holds the assigned value -/
theorem getElem?_assigned_of_mem {as : List Assignment} {a : Assignment} (ha : a ∈ as)
    (hdiff : (as.map (·.column)).Nodup) {row : List Value} (hlt : a.column < row.length) :
    (assigned as row)[a.column]? = some a.value := by
  induction as generalizing row with
  | nil => cases ha
  | cons b as ih =>
    rw [List.map_cons, List.nodup_cons] at hdiff
    rw [assigned]
    rcases List.mem_cons.1 ha with rfl | ha
    · rw [getElem?_assigned_of_notMem hdiff.1, List.getElem?_set_self hlt]
    · exact ih ha hdiff.2 (by rwa [List.length_set])

/-! ## rows with one cell changed -/

theorem getElem?_getD_set (row : List Value) (j k : Nat) (v : Value) (hj : j < row.length) :
    ((row.set j v)[k]?).getD .null = if j = k then v else row[k]?.getD .null := by
  by_cases hk : j = k
  · subst hk
    rw [if_pos rfl, List.getElem?_set_self hj, Option.getD_some]
  · rw [if_neg hk, List.getElem?_set_ne hk]

/-- a changed row changes one value in each column -/
theorem columnOf_set (j : Nat) (rows : List (List Value)) (pos : Nat) (row : List Value) :
    columnOf j (rows.set pos row) = (columnOf j rows).set pos (row[j]?.getD .null) :=
  List.map_set

/-- the column of another cell stays as it is -/
theorem columnOf_set_ne {rows : List (List Value)} {pos : Nat} {row : List Value} {j k : Nat}
    (v : Value) (hrow : rows[pos]? = some row) (hjk : j ≠ k) :
    columnOf k (rows.set pos (row.set j v)) = columnOf k rows := by
  rw [columnOf_set, List.getElem?_set_ne hjk]
  refine List.ext_getElem? fun q => ?_
  by_cases hq : pos = q
  · subst hq
    have hlt : pos < (columnOf k rows).length := by
      rw [length_columnOf]
      exact (List.getElem?_eq_some_iff.1 hrow).1
    rw [List.getElem?_set_self hlt, getElem?_columnOf, hrow, Option.map_some]
  · rw [List.getElem?_set_ne hq]

/-- a value that stands nowhere else may be put anywhere -/
theorem Distinct.set {vs : List Value} (h : Distinct vs) {pos : Nat} {v : Value}
    (hv : v ≠ .null → ∀ q, q ≠ pos → vs[q]? ≠ some v) : Distinct (vs.set pos v) := by
  rw [distinct_iff] at h ⊢
  intro p q w hpq hp hq
  rw [List.getElem?_set] at hp hq
  split at hp
  case isTrue hpos =>
    rw [if_neg (hpos ▸ hpq)] at hq
    split at hp
    · cases hp
      by_contra hne
      exact hv hne q (fun he => hpq (hpos.symm.trans he.symm)) hq
    · cases hp
  case isFalse hpos =>
    split at hq
    case isTrue hqpos =>
      split at hq
      · cases hq
        by_contra hne
        exact hv hne p (fun he => hpos he.symm) hp
      · cases hq
    case isFalse => exact h p q w hpq hp hq

theorem Schema.Fits.set {s : Schema} {row : List Value} (h : s.Fits row) {a : Assignment}
    (ha : s.Takes a) : s.Fits (row.set a.column a.value) := by
  obtain ⟨d, hd, hholds, hkey⟩ := ha
  have hcases {j : Nat} {e : ColumnDef} {v : Value} (he : s.columns[j]? = some e)
      (hv : (row.set a.column a.value)[j]? = some v) :
      (e = d ∧ v = a.value) ∨ row[j]? = some v := by
    rw [List.getElem?_set] at hv
    split at hv
    case isTrue hj =>
      split at hv
      · cases hv
        rw [← hj, hd] at he
        cases he
        exact Or.inl ⟨rfl, rfl⟩
      · cases hv
    case isFalse => exact Or.inr hv
  refine ⟨(List.length_set ..).trans h.length, fun j e v he hv => ?_, fun j e v he hv hpk => ?_⟩
  · rcases hcases he hv with ⟨rfl, rfl⟩ | hv
    · exact hholds
    · exact h.typed j e v he hv
  · rcases hcases he hv with ⟨rfl, rfl⟩ | hv
    · exact hkey hpk
    · exact h.keyed j e v he hv hpk

namespace Table

/-! ## checked assignments -/

section
variable {t : Table} {c : Contents}

/-- one assignment is checked, and goes to a column that those before it leave alone -/
theorem of_assignments_cons {done as : List Assignment} {e : String × Value}
    {pairs : List (String × Value)} (h : t.assignments done (e :: pairs) = .ok as) :
    ∃ a, t.schema.Sets e a ∧ a.column ∉ done.map (·.column) ∧
      t.assignments (done ++ [a]) pairs = .ok as := by
  unfold assignments at h
  split at h
  case h_2 => cases h
  rename_i j d hj hd
  split at h
  · cases h
  rename_i hnew
  split at h
  · cases h
  rename_i w hprepare
  split at h
  · cases h
  rename_i hkey
  obtain ⟨e', he, hname, hcolumn⟩ := Schema.of_position? hj
  rw [hd] at hcolumn
  cases hcolumn
  refine ⟨⟨j, w⟩, ⟨d, he, hname, prepare_eq_ok_iff.1 hprepare, fun hpk => ?_⟩, fun hmem => ?_, h⟩
  · rintro rfl
    exact hkey (by rw [hpk]; rfl)
  · obtain ⟨a, ha, hsame⟩ := List.mem_map.1 hmem
    exact hnew (List.any_eq_true.2 ⟨a, ha, decide_eq_true hsame⟩)

theorem of_assignments {done as : List Assignment} {pairs : List (String × Value)}
    (h : t.assignments done pairs = .ok as) (hdone : (done.map (·.column)).Nodup) :
    ∃ new, as = done ++ new ∧ List.Forall₂ t.schema.Sets pairs new ∧
      (as.map (·.column)).Nodup := by
  induction pairs generalizing done with
  | nil =>
    cases h
    exact ⟨[], (List.append_nil _).symm, .nil, hdone⟩
  | cons e pairs ih =>
    obtain ⟨a, hset, hfree, hrest⟩ := of_assignments_cons h
    have hmore : ((done ++ [a]).map (·.column)).Nodup := by
      rw [List.map_append]
      exact hdone.append (List.nodup_singleton _) (List.disjoint_singleton.2 hfree)
    obtain ⟨new, rfl, hnew, hdiff⟩ := ih hrest hmore
    exact ⟨a :: new, (List.append_cons ..).symm, .cons hset hnew, hdiff⟩

/-- all assignments are checked, and go to different columns -/
theorem sets_of_assignments {as : List Assignment} {pairs : List (String × Value)}
    (h : t.assignments [] pairs = .ok as) :
    List.Forall₂ t.schema.Sets pairs as ∧ (as.map (·.column)).Nodup := by
  obtain ⟨new, rfl, hnew⟩ := of_assignments h List.nodup_nil
  exact hnew

theorem takes_of_assignments {as : List Assignment} {pairs : List (String × Value)}
    (h : t.assignments [] pairs = .ok as) : ∀ a ∈ as, t.schema.Takes a := by
  intro a ha
  obtain ⟨e, -, hset⟩ := Keyed.exists_of_mem_forall₂ (sets_of_assignments h).1 ha
  exact hset.takes

/-! ## one assignment -/

/-- no other row of the column holds the assigned value, if that matters -/
def Free (s : Schema) (rows : List (List Value)) (pos : Nat) (a : Assignment) : Prop :=
  ∀ d, s.columns[a.column]? = some d → d.isConstrained = true → a.value ≠ .null →
    (columnOf a.column rows)[pos]? = some a.value ∨
      ∀ q, q ≠ pos → (columnOf a.column rows)[q]? ≠ some a.value

theorem admits_set {s : Schema} {rows : List (List Value)} (h : s.Admits rows) {pos : Nat}
    {row : List Value} {a : Assignment} (hrow : rows[pos]? = some row) (ha : s.Takes a)
    (hfree : ∀ d, s.columns[a.column]? = some d → d.isConstrained = true → a.value ≠ .null →
      ∀ q, q ≠ pos → (columnOf a.column rows)[q]? ≠ some a.value) :
    s.Admits (rows.set pos (row.set a.column a.value)) := by
  have hfits := h.fits row (List.mem_of_getElem? hrow)
  refine ⟨fun r hr => ?_, fun j d hd hc => ?_⟩
  · rcases List.mem_or_eq_of_mem_set hr with hr | rfl
    · exact h.fits r hr
    · exact hfits.set ha
  · by_cases hj : a.column = j
    · subst hj
      rw [columnOf_set, getElem?_getD_set row _ _ _ (hfits.lt_length hd), if_pos rfl]
      exact (h.distinct a.column d hd hc).set (hfree d hd hc)
    · rw [columnOf_set_ne a.value hrow hj]
      exact h.distinct j d hd hc

/-- the columns, one of them with another value in one row -/
theorem Lays.set {rows : List (List Value)} (h : t.Lays rows) {pos : Nat} {row : List Value}
    {a : Assignment} (hrow : rows[pos]? = some row) (hlen : row.length = t.schema.columns.length)
    (ha : t.schema.Takes a) :
    ∃ d col col', t.schema.columns[a.column]? = some d ∧ t.columns[a.column]? = some col ∧
      col.set pos a.value = .ok col' ∧
      ∀ indexes, Lays { t with columns := t.columns.set a.column col', indexes := indexes }
        (rows.set pos (row.set a.column a.value)) := by
  obtain ⟨d, hd, hholds, -⟩ := ha
  have hj : a.column < t.schema.columns.length := (List.getElem?_eq_some_iff.1 hd).1
  have hcol := List.getElem?_eq_getElem (h.width.symm ▸ hj)
  have hpos : pos < (columnOf a.column rows).length := by
    rw [length_columnOf]
    exact (List.getElem?_eq_some_iff.1 hrow).1
  obtain ⟨col', hset, hreads⟩ := (h.columns a.column d _ hd hcol).set hpos hholds
  refine ⟨d, _, col', hd, hcol, hset, fun indexes => ⟨?_, ?_, fun k e col he hk => ?_⟩⟩
  · rw [List.length_set]
    exact h.count
  · exact (List.length_set ..).trans h.width
  · have hk' : (t.columns.set a.column col')[k]? = some col := hk
    by_cases hjk : a.column = k
    · subst hjk
      rw [show t.schema.columns[a.column]? = some e from he] at hd
      cases hd
      rw [List.getElem?_set_self (h.width.symm ▸ hj)] at hk'
      cases hk'
      rw [columnOf_set, getElem?_getD_set row _ _ _ (hlen ▸ hj), if_pos rfl]
      exact hreads
    · rw [List.getElem?_set_ne hjk] at hk'
      rw [columnOf_set_ne a.value hrow hjk]
      exact h.columns k e col he hk'

/-- the indexes, the one of the column with one row moved to another value -/
theorem Indexed.move {s : Schema} {is : List Index} {rows : List (List Value)}
    (h : Indexed s is (columnOf · rows)) (hv : s.Valid) {pos : Nat} {row : List Value}
    {a : Assignment} {d : ColumnDef} {old : Value} (hd : s.columns[a.column]? = some d)
    (hrow : rows[pos]? = some row) (hold : row[a.column]? = some old)
    (hfree : d.isConstrained = true → a.value ≠ .null →
      ∀ q, q ≠ pos → (columnOf a.column rows)[q]? ≠ some a.value) :
    ∃ is', onIndex d.name (·.move old a.value pos) is = .ok () is' ∧
      Indexed s is' (columnOf · (rows.set pos (row.set a.column a.value))) := by
  have hlt : a.column < row.length := (List.getElem?_eq_some_iff.1 hold).1
  have hcell : (columnOf a.column rows)[pos]? = some old := by
    rw [getElem?_columnOf, hrow, Option.map_some, hold, Option.getD_some]
  refine h.step_ok hv hd _ (fun k hk => columnOf_set_ne a.value hrow hk.symm) fun i hserves => ?_
  obtain ⟨i', hok, hclear, htracks⟩ := hserves.tracks.move hcell fun hu =>
    hfree (hserves.isUnique ▸ hu)
  refine ⟨i', hok, hclear.trans hserves.clear, ?_⟩
  rw [columnOf_set, getElem?_getD_set row _ _ _ hlt, if_pos rfl]
  exact htracks

/-- an assignment goes through where no other row of a constrained column holds its value -/
theorem assign_ok (h : t.Stores c) {pos : Nat} {row : List Value} {a : Assignment}
    (hrow : c.rows[pos]? = some row) (ha : c.schema.Takes a)
    (hfree : Free c.schema c.rows pos a) :
    ∃ u, t.assign pos a = .ok () u ∧
      u.Stores { c with rows := c.rows.set pos (row.set a.column a.value) } := by
  have hlen : row.length = t.schema.columns.length :=
    h.length_of_mem row (List.mem_of_getElem? hrow)
  obtain ⟨d, hd, hholds, hkey⟩ := ha
  have hj : a.column < row.length := by
    rw [hlen, h.schema]
    exact (List.getElem?_eq_some_iff.1 hd).1
  have hold : row[a.column]? = some row[a.column] := List.getElem?_eq_getElem hj
  have hvalue : t.valueAt a.column pos = row[a.column] := by
    rw [h.valueAt_eq, hrow, Option.bind_some, hold, Option.getD_some]
  unfold assign
  dsimp only
  rw [hvalue]
  by_cases hsame : row[a.column] = a.value
  · refine ⟨t, if_pos hsame, ?_⟩
    have hrow' : c.rows.set pos (row.set a.column a.value) = c.rows := by
      obtain ⟨hpos, rfl⟩ := List.getElem?_eq_some_iff.1 hrow
      rw [← hsame, List.set_getElem_self, List.set_getElem_self]
    rw [hrow']
    exact h
  · have hother (e : ColumnDef) (he : c.schema.columns[a.column]? = some e)
        (hc : e.isConstrained = true) (hne : a.value ≠ .null) :
        ∀ q, q ≠ pos → (columnOf a.column c.rows)[q]? ≠ some a.value := by
      rcases hfree e he hc hne with hcell | hfree
      · rw [getElem?_columnOf, hrow, Option.map_some, hold] at hcell
        exact absurd (Option.some.inj hcell) hsame
      · exact hfree
    have htakes : t.schema.Takes a := by
      rw [h.schema]
      exact ⟨d, hd, hholds, hkey⟩
    obtain ⟨e, col, col', he, hcol, hset, hlays⟩ := h.lays.set hrow hlen htakes
    rw [h.schema, hd] at he
    cases he
    obtain ⟨is, his, hindexed⟩ := h.indexed.move h.valid hd hrow hold (hother d hd)
    refine ⟨{ t with columns := t.columns.set a.column col', indexes := is }, ?_, h.name,
      h.schema, h.valid, admits_set h.admits hrow ⟨d, hd, hholds, hkey⟩ hother, hlays is, hindexed⟩
    rw [if_neg hsame, hcol, h.schema, hd]
    dsimp only
    rw [hset]
    dsimp only
    rw [his, Outcome.within_ok]

/-! ## all assignments in one row -/

theorem assignRow_ok {as : List Assignment} (h : t.Stores c) {pos : Nat} {row : List Value}
    (hrow : c.rows[pos]? = some row) (htakes : ∀ a ∈ as, c.schema.Takes a)
    (hdiff : (as.map (·.column)).Nodup) (hfree : ∀ a ∈ as, Free c.schema c.rows pos a) :
    ∃ u, Outcome.forEach (fun a u => u.assign pos a) as t = .ok () u ∧
      u.Stores { c with rows := c.rows.set pos (assigned as row) } := by
  induction as generalizing t c row with
  | nil =>
    refine ⟨t, rfl, ?_⟩
    obtain ⟨hpos, rfl⟩ := List.getElem?_eq_some_iff.1 hrow
    unfold assigned
    rw [List.set_getElem_self]
    exact h
  | cons a as ih =>
    rw [List.forall_mem_cons] at htakes hfree
    rw [List.map_cons, List.nodup_cons] at hdiff
    obtain ⟨u, hu, hstores⟩ := assign_ok h hrow htakes.1 hfree.1
    have hpos : pos < c.rows.length := (List.getElem?_eq_some_iff.1 hrow).1
    obtain ⟨w, hw, hstores'⟩ := ih hstores (List.getElem?_set_self hpos) htakes.2 hdiff.2
      fun b hb => by
        have hne : a.column ≠ b.column := fun he => hdiff.1 (List.mem_map.2 ⟨b, hb, he.symm⟩)
        -- the other assignments go to other columns, which are as they were
        unfold Free
        rw [columnOf_set_ne a.value hrow hne]
        exact hfree.2 b hb
    refine ⟨w, ?_, ?_⟩
    · rw [Outcome.forEach, hu, Outcome.andThen_ok, hw]
    · rw [List.set_set] at hstores'
      exact hstores'

/-! ## all matching rows -/

/-- each of these rows holds the assigned value already, or there is one of them at most and no
other row holds it -/
theorem of_conflict? (h : t.Stores c) {matched : List Nat} {a : Assignment} {d : ColumnDef}
    (hmatched : ∀ pos ∈ matched, pos < c.rows.length)
    (hno : t.conflict? matched a = none) (hd : c.schema.columns[a.column]? = some d)
    (hc : d.isConstrained = true) (hne : a.value ≠ .null) :
    (∀ pos ∈ matched, (columnOf a.column c.rows)[pos]? = some a.value) ∨
      (matched.length ≤ 1 ∧
        ∀ q, q ∉ matched → (columnOf a.column c.rows)[q]? ≠ some a.value) := by
  obtain ⟨i, hi⟩ := h.exists_index? (List.mem_of_getElem? hd) hc
  have hcell {pos : Nat} (hpos : pos < c.rows.length) :
      (columnOf a.column c.rows)[pos]? = some (t.valueAt a.column pos) := by
    rw [h.valueAt_eq, getElem?_columnOf, List.getElem?_eq_getElem hpos, Option.map_some,
      Option.bind_some]
  have hnull : ¬ a.value.isNull = true := by rwa [Value.isNull_iff]
  unfold conflict? at hno
  rw [if_neg hnull, h.schema, hd] at hno
  simp only [Option.bind_some, hi] at hno
  split at hno
  · cases hno
  rename_i hfine
  by_cases hall : ∀ pos ∈ matched, (columnOf a.column c.rows)[pos]? = some a.value
  · exact Or.inl hall
  · refine Or.inr ?_
    -- some matching row would change, so the check has counted the rows that would hold the value
    have hany : matched.any (fun pos => t.valueAt a.column pos ≠ a.value) = true := by
      simp only [not_forall] at hall
      obtain ⟨pos, hpos, hold⟩ := hall
      refine List.any_eq_true.2 ⟨pos, hpos, decide_eq_true fun he => hold ?_⟩
      rw [hcell (hmatched pos hpos), he]
    have hpos : 0 < matched.length := by
      obtain ⟨pos, hpos, -⟩ := List.any_eq_true.1 hany
      exact List.length_pos_of_mem hpos
    rw [hany, Bool.true_and, decide_eq_true_iff] at hfine
    refine ⟨by omega, fun q hq hold => ?_⟩
    have hkept : q ∈ (i.find a.value).filter (· ∉ matched) := by
      rw [List.mem_filter, (h.serves hd hi).tracks.mem]
      exact ⟨hold, decide_eq_true hq⟩
    have hlen := List.length_pos_of_mem hkept
    omega

/-- rows of which those at some positions have been assigned to -/
def assignedAt (as : List Assignment) (ps : List Nat) (rows : List (List Value)) :
    List (List Value) :=
  rows.mapIdx fun pos row => if pos ∈ ps then assigned as row else row

theorem getElem?_assignedAt (as : List Assignment) (ps : List Nat) (rows : List (List Value))
    (pos : Nat) : (assignedAt as ps rows)[pos]?
      = rows[pos]?.map fun row => if pos ∈ ps then assigned as row else row :=
  List.getElem?_mapIdx

theorem assignedAt_append (as : List Assignment) {ps : List Nat} {rows : List (List Value)}
    {pos : Nat} {row : List Value} (hrow : rows[pos]? = some row) :
    (assignedAt as ps rows).set pos (assigned as row) = assignedAt as (ps ++ [pos]) rows := by
  refine List.ext_getElem? fun q => ?_
  rw [getElem?_assignedAt, List.getElem?_set, getElem?_assignedAt]
  by_cases hq : pos = q
  · subst hq
    have hlt : pos < (assignedAt as ps rows).length := by
      unfold assignedAt
      rw [List.length_mapIdx]
      exact (List.getElem?_eq_some_iff.1 hrow).1
    simp [hlt, hrow]
  · have hq' : ¬ q = pos := Ne.symm hq
    simp [hq, hq']

/-- the values of a column in the rows not yet assigned to are the old ones -/
theorem columnOf_assignedAt {as : List Assignment} {ps : List Nat} {rows : List (List Value)}
    {j q : Nat} (hq : q ∉ ps) :
    (columnOf j (assignedAt as ps rows))[q]? = (columnOf j rows)[q]? := by
  rw [getElem?_columnOf, getElem?_columnOf, getElem?_assignedAt, Option.map_map]
  simp only [if_neg hq]
  rfl

/-- assigning to all the matching rows is never refused half way -/
theorem assignAll_ok {as : List Assignment} {matched : List Nat} (h : t.Stores c)
    (hmatched : ∀ pos ∈ matched, pos < c.rows.length) (hnodup : matched.Nodup)
    (htakes : ∀ a ∈ as, c.schema.Takes a) (hdiff : (as.map (·.column)).Nodup)
    (hno : ∀ a ∈ as, t.conflict? matched a = none) :
    ∃ u, Outcome.forEach (fun pos u => Outcome.forEach (fun a u => u.assign pos a) as u)
        matched t = .ok () u ∧
      u.Stores { c with rows := assignedAt as matched c.rows } := by
  have hstart : assignedAt as [] c.rows = c.rows := by
    refine List.ext_getElem? fun pos => ?_
    rw [getElem?_assignedAt]
    simp
  obtain ⟨u, hu, done, hdone, hstores⟩ := Outcome.forEach_ok
    (fun ps u => ∃ done, matched = done ++ ps ∧
      u.Stores { c with rows := assignedAt as done c.rows })
    (fun pos ps u ⟨done, hdone, hstores⟩ => by
      have hpos : pos < c.rows.length := hmatched pos (hdone ▸ by simp)
      have hrow := List.getElem?_eq_getElem hpos
      have hnew : pos ∉ done := by
        rw [hdone, List.nodup_append] at hnodup
        exact fun hmem => hnodup.2.2 pos hmem pos List.mem_cons_self rfl
      have hrow' : (assignedAt as done c.rows)[pos]? = some c.rows[pos] := by
        rw [getElem?_assignedAt, hrow, Option.map_some, if_neg hnew]
      obtain ⟨w, hw, hstores'⟩ := assignRow_ok hstores hrow' htakes hdiff fun a ha d hd hc hne => by
        rcases of_conflict? h hmatched (hno a ha) hd hc hne with hall | ⟨hone, hfree⟩
        · refine Or.inl ?_
          show (columnOf a.column (assignedAt as done c.rows))[pos]? = _
          rw [columnOf_assignedAt hnew]
          exact hall pos (hdone ▸ by simp)
        · refine Or.inr fun q hq => ?_
          -- this row is the only one that matches, so nothing has been assigned yet
          obtain rfl : done = [] := by
            rw [hdone, List.length_append, List.length_cons] at hone
            exact List.eq_nil_of_length_eq_zero (by omega)
          obtain rfl : ps = [] := by
            rw [hdone, List.length_append, List.length_cons] at hone
            exact List.eq_nil_of_length_eq_zero (by omega)
          show (columnOf a.column (assignedAt as [] c.rows))[q]? ≠ _
          rw [hstart]
          exact hfree q (by rw [hdone]; simpa using hq)
      refine ⟨w, hw, done ++ [pos], by rw [hdone, List.append_cons], ?_⟩
      rw [← assignedAt_append as hrow]
      exact hstores')
    matched t ⟨[], rfl, by rwa [hstart]⟩
  rw [List.append_nil] at hdone
  exact ⟨u, hu, hdone ▸ hstores⟩

/-! ## updates -/

theorem assignedAt_matching (h : t.Stores c) (as : List Assignment) (p : Option Predicate) :
    assignedAt as (t.matching p) c.rows
      = c.rows.map fun row => if selects p row then assigned as row else row := by
  refine List.ext_getElem? fun pos => ?_
  rw [getElem?_assignedAt, List.getElem?_map]
  cases hrow : c.rows[pos]? with
  | none => rfl
  | some row =>
    have hiff : pos ∈ t.matching p ↔ selects p row = true := by
      rw [h.mem_matching]
      simp [hrow]
    simp only [Option.map_some, hiff]

/-- what an update is to do, or the reason against it -/
def plan (t : Table) (pairs : List (String × Value)) (condition : Option Condition) :
    Except Error (List Assignment × Option Predicate) :=
  match t.assignments [] pairs with
  | .error e => .error e
  | .ok as =>
    match condition.mapM t.predicate with
    | .error e => .error e
    | .ok p =>
      match as.findSome? (t.conflict? (t.matching p)) with
      | some e => .error e
      | none => .ok (as, p)

/-- an update fails before it changes anything, or assigns to exactly the selected rows -/
theorem update_cases (h : t.Stores c) (pairs : List (String × Value))
    (condition : Option Condition) :
    (∃ e, t.plan pairs condition = .error e ∧ t.update pairs condition = .fail e t) ∨
      ∃ as p u, t.plan pairs condition = .ok (as, p) ∧
        t.update pairs condition = .ok (c.rows.countP (selects p)) u ∧
        u.Stores { c with
          rows := c.rows.map fun row => if selects p row then assigned as row else row } := by
  unfold Table.update plan
  cases has : t.assignments [] pairs with
  | error e => exact Or.inl ⟨e, rfl, rfl⟩
  | ok as =>
    cases hp : condition.mapM t.predicate with
    | error e => exact Or.inl ⟨e, rfl, rfl⟩
    | ok p =>
      dsimp only
      cases hconflict : as.findSome? (t.conflict? (t.matching p)) with
      | some e => exact Or.inl ⟨e, rfl, rfl⟩
      | none =>
        rw [List.findSome?_eq_none_iff] at hconflict
        have htakes := takes_of_assignments has
        have hdiff := (sets_of_assignments has).2
        have hmatched (pos : Nat) (hpos : pos ∈ t.matching p) : pos < c.rows.length := by
          obtain ⟨row, hrow, -⟩ := h.mem_matching.1 hpos
          exact (List.getElem?_eq_some_iff.1 hrow).1
        have hnodup : (t.matching p).Nodup := (matching_ascending t p).imp Nat.ne_of_lt
        obtain ⟨u, hu, hstores⟩ :=
          assignAll_ok h hmatched hnodup (h.schema ▸ htakes) hdiff hconflict
        refine Or.inr ⟨as, p, u, rfl, ?_, ?_⟩
        · dsimp only
          rw [hu, Outcome.map_ok, h.length_matching]
        · rw [← assignedAt_matching h]
          exact hstores

end

end Table

end TableStore
