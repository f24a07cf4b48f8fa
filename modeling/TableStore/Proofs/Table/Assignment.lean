import TableStore.Proofs.Table.Acceptance
import TableStore.Proofs.Table.Selection
import TableStore.Proofs.Table.Update

/-!
# What an update asks for

* `Schema.Assigns`           named values that may be assigned: known names, none twice, values of
                             fitting types, and something for a primary key;
* `Schema.assign`            a row with the assigned cells replaced;
* `Table.Permits`            an update of the wanted rows breaks no rule, and leaves no two rows
                             with one value in an assigned column where it may stand only once;
* `assignments_iff`          the assignments are accepted if they may be made;
* `Stores.conflict?_eq_none` the check by index finds no conflict in a column whose values may stand
                             together after the update;
* `Stores.plan_iff`          so an update is carried out exactly if it is permitted.
-/

namespace TableStore

namespace Schema

/-- named values that may be assigned -/
structure Assigns (s : Schema) (pairs : List (String × Value)) : Prop where
  named : Row.Named s.names pairs
  typed : s.Typed pairs
  keyed : ∀ d ∈ s.columns, d.isPrimaryKey = true → (d.name, .null) ∉ pairs

/-- a row with the assigned cells replaced by the values, each brought to the type of its column -/
def assign (s : Schema) (pairs : List (String × Value)) (r : Row) : Row :=
  ⟨r.columns, s.columns.zipWith
    (fun d v => ((pairs.lookup d.name).bind d.type.coerce?).getD v) r.values⟩

end Schema

namespace Table

/-- the rows of a table, assigned to where they are wanted -/
def rewritten (t : Table) (pairs : List (String × Value)) (wanted : Row → Bool) : List Row :=
  t.rows.map fun r => if wanted r then t.schema.assign pairs r else r

/-- named values that may be assigned to the wanted rows, after which no two rows hold one value in
an assigned column where it may stand only once -/
structure Permits (t : Table) (pairs : List (String × Value)) (wanted : Row → Bool) : Prop where
  assigns : t.schema.Assigns pairs
  apart : ∀ d ∈ t.schema.columns, d.isConstrained = true → d.name ∈ pairs.map (·.1) →
    Row.Apart d.name (t.rewritten pairs wanted)

end Table

/-! ## named values and assignments -/

section
variable {s : Schema} {pairs : List (String × Value)} {as : List Assignment}

/-- no column is assigned to twice if no name stands twice -/
theorem Schema.Sets.nodup_iff (hv : s.Valid) (h : List.Forall₂ s.Sets pairs as) :
    (as.map (·.column)).Nodup ↔ (pairs.map (·.1)).Nodup := by
  have hnames : (as.map (·.column)).map (s.names[·]?) = (pairs.map (·.1)).map some := by
    rw [List.map_map, List.map_map]
    refine Keyed.map_eq_of_forall₂ (fun e a ⟨d, hd, hname, _⟩ => ?_) h
    rw [Function.comp_apply, Function.comp_apply, getElem?_names hd, hname]
  have hpositions : (as.map (·.column)).map some = (pairs.map (·.1)).map s.position? := by
    rw [List.map_map, List.map_map]
    refine Keyed.map_eq_of_forall₂ (fun e a ⟨d, hd, hname, _⟩ => ?_) h
    rw [Function.comp_apply, Function.comp_apply, ← hname, hv.position?_eq hd]
  constructor
  · intro hn
    refine List.Nodup.of_map s.position? ?_
    rw [← hpositions]
    exact hn.map fun _ _ => Option.some.inj
  · intro hn
    refine List.Nodup.of_map (s.names[·]?) ?_
    rw [hnames]
    exact hn.map fun _ _ => Option.some.inj

/-- named values may be assigned if each means an assignment, and none stands twice -/
theorem Schema.assigns_iff (hv : s.Valid) :
    s.Assigns pairs ↔ (pairs.map (·.1)).Nodup ∧ ∀ e ∈ pairs, ∃ a, s.Sets e a := by
  constructor
  · intro h
    refine ⟨h.named.distinct, fun e he => ?_⟩
    obtain ⟨d, hd, hname⟩ := List.mem_map.1 (h.named.known e he)
    obtain ⟨j, hj⟩ := List.mem_iff_getElem?.1 hd
    have hmem : (d.name, e.2) ∈ pairs := hname ▸ he
    obtain ⟨w, hw⟩ := h.typed d hd e.2 hmem
    refine ⟨⟨j, w⟩, d, hj, hname, hw, fun hpk => ?_⟩
    rintro rfl
    rw [coerce?_eq_some_null_iff] at hw
    exact h.keyed d hd hpk (hw ▸ hmem)
  · rintro ⟨hdiff, hsets⟩
    refine ⟨⟨fun e he => ?_, hdiff⟩, fun d hd v hgiven => ?_, fun d hd hpk hnull => ?_⟩
    · obtain ⟨a, d, hd, hname, -⟩ := hsets e he
      exact hname ▸ mem_names_of_getElem? hd
    · obtain ⟨a, e, he, hname, hcoerce, -⟩ := hsets _ hgiven
      obtain rfl := hv.eq_of_mem (List.mem_of_getElem? he) hd hname
      exact ⟨a.value, hcoerce⟩
    · obtain ⟨a, e, he, hname, hcoerce, hkey⟩ := hsets _ hnull
      obtain rfl := hv.eq_of_mem (List.mem_of_getElem? he) hd hname
      rw [coerce?_null _] at hcoerce
      exact hkey hpk (Option.some.inj hcoerce).symm

/-- an assigned row holds in each column what is assigned there, and elsewhere what it held -/
theorem Schema.getElem?_assigned (hv : s.Valid) (h : List.Forall₂ s.Sets pairs as)
    (hdiff : (pairs.map (·.1)).Nodup) {j : Nat} {d : ColumnDef} (hd : s.columns[j]? = some d)
    (row : List Value) :
    (assigned as row)[j]?
      = row[j]?.map fun v => ((pairs.lookup d.name).bind d.type.coerce?).getD v := by
  induction h generalizing row with
  | nil => exact Option.map_id'.symm
  | @cons e a pairs as hset _ ih =>
    obtain ⟨e', he', hname, hcoerce, -⟩ := hset
    rw [List.map_cons, List.nodup_cons] at hdiff
    rw [assigned, ih hdiff.2, Keyed.lookup_cons]
    by_cases hsame : d.name = e.1
    · obtain ⟨rfl, rfl⟩ := hv.eq_of_name_eq hd he' (hsame.trans hname.symm)
      have hrest : pairs.lookup d.name = none := by
        cases hl : pairs.lookup d.name with
        | none => rfl
        | some w => exact absurd (List.mem_map.2 ⟨_, Keyed.mem_of_lookup hl, hsame⟩) hdiff.1
      rw [if_pos hsame, hrest, Option.bind_some, hcoerce, List.getElem?_set_self']
      cases row[a.column]? <;> rfl
    · have hne : a.column ≠ j := by
        rintro rfl
        rw [hd] at he'
        cases he'
        exact hsame hname
      rw [if_neg hsame, List.getElem?_set_ne hne]

/-- a row that shows is assigned to as the row that is stored -/
theorem Schema.assign_eq (hv : s.Valid) (h : List.Forall₂ s.Sets pairs as)
    (hdiff : (pairs.map (·.1)).Nodup) {row : List Value} (hlen : row.length = s.columns.length) :
    s.assign pairs ⟨s.names, row⟩ = ⟨s.names, assigned as row⟩ := by
  unfold assign
  congr 1
  refine List.ext_getElem? fun j => ?_
  rw [List.getElem?_zipWith]
  cases hd : s.columns[j]? with
  | none =>
    have hj : (assigned as row).length ≤ j := by
      rw [length_assigned, hlen]
      exact List.getElem?_eq_none_iff.1 hd
    rw [List.getElem?_eq_none hj]
  | some d =>
    rw [getElem?_assigned hv h hdiff hd]
    cases row[j]? <;> rfl

end

/-! ## checking the assignments -/

namespace Table

section
variable {t : Table} {c : Contents} {pairs : List (String × Value)} {as : List Assignment}

/-- assignments that the named values mean pass the checks -/
theorem assignments_of_sets (hv : t.schema.Valid) {done : List Assignment}
    (h : List.Forall₂ t.schema.Sets pairs as) (hdiff : ((done ++ as).map (·.column)).Nodup) :
    t.assignments done pairs = .ok (done ++ as) := by
  induction h generalizing done with
  | nil =>
    rw [List.append_nil]
    rfl
  | @cons e a pairs as hset _ ih =>
    obtain ⟨name, v⟩ := e
    obtain ⟨d, hd, rfl, hcoerce, hkey⟩ := hset
    have hnew : ¬ done.any (·.column = a.column) = true := by
      rw [List.any_eq_true]
      rintro ⟨b, hb, hsame⟩
      rw [List.map_append, List.map_cons, List.nodup_append] at hdiff
      exact hdiff.2.2 _ (List.mem_map.2 ⟨b, hb, rfl⟩) _ List.mem_cons_self (of_decide_eq_true hsame)
    have hkept : ¬ (d.isPrimaryKey && a.value.isNull) = true := by
      rw [Bool.and_eq_true, Value.isNull_iff]
      exact fun h => hkey h.1 h.2
    rw [List.append_cons] at hdiff ⊢
    unfold assignments
    rw [hv.position?_eq hd, hv.column?_eq hd]
    dsimp only
    rw [if_neg hnew, prepare_eq_ok_iff.2 hcoerce]
    dsimp only
    rw [if_neg hkept]
    exact ih hdiff

/-- the assignments are accepted if they may be made -/
theorem assignments_iff (hv : t.schema.Valid) :
    (∃ as, t.assignments [] pairs = .ok as) ↔ t.schema.Assigns pairs := by
  rw [Schema.assigns_iff hv, ← Keyed.exists_forall₂_iff]
  constructor
  · rintro ⟨as, has⟩
    obtain ⟨hsets, hdiff⟩ := sets_of_assignments has
    exact ⟨(Schema.Sets.nodup_iff hv hsets).1 hdiff, as, hsets⟩
  · rintro ⟨hdiff, as, hsets⟩
    exact ⟨as, assignments_of_sets hv hsets ((Schema.Sets.nodup_iff hv hsets).2 hdiff)⟩

/-! ## conflicts -/

/-- where a value stands once at most, it has one position at most -/
theorem length_le_one {vs : List Value} (h : Distinct vs) {v : Value} (hv : v ≠ .null)
    {ps : List Nat} (hn : ps.Nodup) (hps : ∀ p ∈ ps, vs[p]? = some v) : ps.length ≤ 1 := by
  rcases ps with _ | ⟨p, _ | ⟨q, ps⟩⟩
  · exact Nat.zero_le 1
  · exact Nat.le_refl 1
  · have hpq : p ≠ q := fun he => (List.nodup_cons.1 hn).1 (he ▸ List.mem_cons_self)
    have hnull := distinct_iff.1 h p q v hpq (hps p (by simp)) (hps q (by simp))
    exact absurd hnull hv

/-- no conflict is found where the updated column `vs` may stand -/
theorem Stores.conflict?_eq_none (h : t.Stores c) {matched : List Nat} (hn : matched.Nodup)
    {a : Assignment} {d : ColumnDef} (hd : c.schema.columns[a.column]? = some d) {vs : List Value}
    (hmatched : ∀ pos ∈ matched, vs[pos]? = some a.value)
    (hkept : ∀ pos, pos ∉ matched → vs[pos]? = (columnOf a.column c.rows)[pos]?)
    (hdistinct : d.isConstrained = true → Distinct vs) : t.conflict? matched a = none := by
  unfold conflict?
  by_cases hnull : a.value.isNull = true
  · rw [if_pos hnull]
  rw [if_neg hnull, h.schema, hd, Option.bind_some]
  cases hi : t.index? d.name with
  | none => rfl
  | some i =>
    dsimp only
    rw [if_neg]
    rw [Bool.and_eq_true, decide_eq_true_iff]
    rintro ⟨-, hcount⟩
    -- the rows counted are those that hold the value after the update
    have hvs := hdistinct (h.constrained_of_index? hd hi)
    have hfound := (h.serves hd hi).tracks
    have hone : ((i.find a.value).filter (· ∉ matched) ++ matched).length ≤ 1 := by
      refine length_le_one hvs (fun he => hnull (Value.isNull_iff.2 he)) ?_ fun pos hpos => ?_
      · refine List.Nodup.append ?_ hn fun pos hpos hpos' => ?_
        · exact ((Index.find_ascending hfound.sound _).imp Nat.ne_of_lt).filter _
        · exact of_decide_eq_true (List.mem_filter.1 hpos).2 hpos'
      · rcases List.mem_append.1 hpos with hpos | hpos
        · obtain ⟨hmem, hout⟩ := List.mem_filter.1 hpos
          rw [hkept pos (of_decide_eq_true hout)]
          exact (hfound.mem _ _).1 hmem
        · exact hmatched pos hpos
    rw [List.length_append] at hone
    omega

/-! ## updates -/

/-- what an update is to do, when it does it -/
theorem plan_eq_ok_iff {k : Option Condition} {p : Option Predicate} :
    t.plan pairs k = .ok (as, p) ↔ t.assignments [] pairs = .ok as ∧
      k.mapM t.predicate = .ok p ∧ ∀ a ∈ as, t.conflict? (t.matching p) a = none := by
  rw [← List.findSome?_eq_none_iff]
  constructor
  · intro h
    unfold plan at h
    split at h
    · cases h
    rename_i as' has
    split at h
    · cases h
    rename_i p' hp
    split at h
    · cases h
    rename_i hnone
    cases h
    exact ⟨has, hp, hnone⟩
  · rintro ⟨has, hp, hnone⟩
    unfold plan
    rw [has]
    dsimp only
    rw [hp]
    dsimp only
    rw [hnone]

/-- the rows that show are assigned to as the rows that are stored -/
theorem Stores.rewritten_eq (h : t.Stores c) (hsets : List.Forall₂ t.schema.Sets pairs as)
    (hdiff : (pairs.map (·.1)).Nodup) {p : Option Predicate} {wanted : Row → Bool}
    (hwanted : ∀ row ∈ c.rows, wanted ⟨c.schema.names, row⟩ = selects p row) :
    t.rewritten pairs wanted
      = (c.rows.map fun row => if selects p row then assigned as row else row).map
          (Row.mk c.schema.names) := by
  unfold rewritten
  rw [h.rows_eq, List.map_map, List.map_map]
  refine List.map_congr_left fun row hrow => ?_
  have hassign := Schema.assign_eq (h.schema ▸ h.valid) hsets hdiff (h.length_of_mem row hrow)
  rw [h.schema] at hassign
  rw [Function.comp_apply, Function.comp_apply, hwanted row hrow, h.schema, hassign]
  split <;> rfl

/-- the updated rows are of the width of the schema -/
theorem Stores.length_of_mem_map (h : t.Stores c) {p : Option Predicate} :
    ∀ row ∈ c.rows.map (fun row => if selects p row then assigned as row else row),
      row.length = c.schema.columns.length := by
  intro row' hrow'
  obtain ⟨row, hrow, rfl⟩ := List.mem_map.1 hrow'
  have hlen := (h.admits.fits row hrow).length
  split
  · rw [length_assigned, hlen]
  · exact hlen

/-- the updated rows are apart in a column where its values are distinct -/
theorem Stores.apart_rewritten_iff (h : t.Stores c) (hsets : List.Forall₂ t.schema.Sets pairs as)
    (hdiff : (pairs.map (·.1)).Nodup) {p : Option Predicate} {wanted : Row → Bool}
    (hwanted : ∀ row ∈ c.rows, wanted ⟨c.schema.names, row⟩ = selects p row) {j : Nat}
    {d : ColumnDef} (hd : c.schema.columns[j]? = some d) :
    Row.Apart d.name (t.rewritten pairs wanted) ↔
      Distinct (columnOf j (assignedAt as (t.matching p) c.rows)) := by
  rw [h.rewritten_eq hsets hdiff hwanted, apart_iff h.valid hd h.length_of_mem_map,
    assignedAt_matching h]

/-- a permitted update of the selected rows meets no conflict -/
theorem Stores.conflict?_of_permits (h : t.Stores c) {p : Option Predicate} {wanted : Row → Bool}
    (hwanted : ∀ row ∈ c.rows, wanted ⟨c.schema.names, row⟩ = selects p row)
    (hp : t.Permits pairs wanted) (hsets : List.Forall₂ t.schema.Sets pairs as) {a : Assignment}
    (ha : a ∈ as) : t.conflict? (t.matching p) a = none := by
  have hv : t.schema.Valid := h.schema ▸ h.valid
  have hdiff := hp.assigns.named.distinct
  obtain ⟨e, he, d, hd, hname, -⟩ := Keyed.exists_of_mem_forall₂ hsets ha
  have hd' : c.schema.columns[a.column]? = some d := h.schema ▸ hd
  have hmatched : ∀ pos ∈ t.matching p,
      (columnOf a.column (assignedAt as (t.matching p) c.rows))[pos]? = some a.value := by
    intro pos hpos
    obtain ⟨row, hrow, -⟩ := h.mem_matching.1 hpos
    have hlt := (h.admits.fits row (List.mem_of_getElem? hrow)).lt_length hd'
    rw [getElem?_columnOf, getElem?_assignedAt, hrow, Option.map_some, Option.map_some,
      if_pos hpos, getElem?_assigned_of_mem ha ((Schema.Sets.nodup_iff hv hsets).2 hdiff) hlt]
    rfl
  refine h.conflict?_eq_none ((matching_ascending t p).imp Nat.ne_of_lt) hd' hmatched
    (fun pos hpos => columnOf_assignedAt hpos) fun hcon => ?_
  refine (h.apart_rewritten_iff hsets hdiff hwanted hd').1 ?_
  exact hp.apart d (List.mem_of_getElem? hd) hcon (hname ▸ List.mem_map.2 ⟨e, he, rfl⟩)

/-- an update of the selected rows is carried out exactly if it is permitted -/
theorem Stores.plan_iff (h : t.Stores c) {k : Option Condition} {p : Option Predicate}
    (hp : k.mapM t.predicate = .ok p) {wanted : Row → Bool}
    (hwanted : ∀ row ∈ c.rows, wanted ⟨c.schema.names, row⟩ = selects p row) :
    (∃ as, t.plan pairs k = .ok (as, p)) ↔ t.Permits pairs wanted := by
  have hv : t.schema.Valid := h.schema ▸ h.valid
  constructor
  · rintro ⟨as, hplan⟩
    obtain ⟨has, -, -⟩ := plan_eq_ok_iff.1 hplan
    obtain ⟨hsets, -⟩ := sets_of_assignments has
    have hassigns := (assignments_iff hv).1 ⟨as, has⟩
    refine ⟨hassigns, fun d hd hcon _ => ?_⟩
    -- what is carried out leaves rows that the schema admits
    rcases update_cases h pairs k with ⟨e, herror, -⟩ | ⟨as', p', u, hplan', -, hstores⟩
    · rw [hplan] at herror
      cases herror
    rw [hplan] at hplan'
    cases hplan'
    obtain ⟨j, hj⟩ := List.mem_iff_getElem?.1 hd
    rw [h.schema] at hj
    rw [h.apart_rewritten_iff hsets hassigns.named.distinct hwanted hj, assignedAt_matching h]
    exact hstores.admits.distinct j d hj hcon
  · intro hpermits
    obtain ⟨as, has⟩ := (assignments_iff hv).2 hpermits.assigns
    obtain ⟨hsets, -⟩ := sets_of_assignments has
    exact ⟨as, plan_eq_ok_iff.2 ⟨has, hp, fun a => h.conflict?_of_permits hwanted hpermits hsets⟩⟩

end

end Table

end TableStore
