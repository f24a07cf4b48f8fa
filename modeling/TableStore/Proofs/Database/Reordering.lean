import Mathlib.Data.List.Perm.Basic
import TableStore.Database.Run
import TableStore.Proofs.Database.Changes

/-!
# Named values in another order

* `onIndex_comm`            steps on the indexes of two columns may be taken in either order;
* `Table.assign_comm`       and so may assignments to two columns;
* `Table.plan_perm`         the checks of an update let the same assignments through, in order;
* `Stores.update_perm`      so an update does the same whatever the order of its assignments;
* `Table.Welcomes.perm`     a row keeps the rules in any order of its values;
* `Stores.insert_perm`      so an insertion does the same whatever that order;
* `Database.writes_perm`    both in every database that can be reached, where the columns of a row
                            may be left out if all are given in order.
-/

namespace TableStore

namespace Table

/-! ## one assignment after another -/

/-- steps on the indexes of two columns, neither of which makes an index one of another column -/
theorem onIndex_comm {name name' : String} (hne : name ≠ name')
    {f g : Index → Outcome Index Unit} (hf : ∀ i i', f i = .ok () i' → i'.column = i.column)
    (hg : ∀ i i', g i = .ok () i' → i'.column = i.column) {is js ks : List Index}
    (hjs : onIndex name f is = .ok () js) (hks : onIndex name' g js = .ok () ks) :
    ∃ js', onIndex name' g is = .ok () js' ∧ onIndex name f js' = .ok () ks := by
  induction is generalizing js ks with
  | nil =>
    cases hjs
    cases hks
    exact ⟨[], rfl, rfl⟩
  | cons i is ih =>
    unfold onIndex at hjs
    by_cases hname : i.column = name
    · rw [if_pos hname, Outcome.within_eq_ok_iff] at hjs
      obtain ⟨i', hi', rfl⟩ := hjs
      have hother : ¬ i.column = name' := fun he => hne (hname.symm.trans he)
      rw [onIndex, if_neg (hf i i' hi' ▸ hother), Outcome.within_eq_ok_iff] at hks
      obtain ⟨ls, hls, rfl⟩ := hks
      refine ⟨i :: ls, ?_, ?_⟩
      · rw [onIndex, if_neg hother, hls, Outcome.within_ok]
      · rw [onIndex, if_pos hname, hi', Outcome.within_ok]
    · rw [if_neg hname, Outcome.within_eq_ok_iff] at hjs
      obtain ⟨js, hjs, rfl⟩ := hjs
      unfold onIndex at hks
      by_cases hname' : i.column = name'
      · rw [if_pos hname', Outcome.within_eq_ok_iff] at hks
        obtain ⟨i', hi', rfl⟩ := hks
        refine ⟨i' :: is, ?_, ?_⟩
        · rw [onIndex, if_pos hname', hi', Outcome.within_ok]
        · rw [onIndex, if_neg (hg i i' hi' ▸ hname), hjs, Outcome.within_ok]
      · rw [if_neg hname', Outcome.within_eq_ok_iff] at hks
        obtain ⟨ks, hks, rfl⟩ := hks
        obtain ⟨ls, hls, hls'⟩ := ih hjs hks
        refine ⟨i :: ls, ?_, ?_⟩
        · rw [onIndex, if_neg hname', hls, Outcome.within_ok]
        · rw [onIndex, if_neg hname, hls', Outcome.within_ok]

theorem column_of_move {i i' : Index} {old new : Value} {pos : Nat}
    (h : i.move old new pos = .ok () i') : i'.column = i.column := by
  unfold Index.move Index.add at h
  split at h
  · cases h
    rfl
  · dsimp only at h
    split at h
    · rename_i hadd
      split at hadd
      · cases hadd
      · cases hadd
        cases h
        rfl
    · cases h

section
variable {t u w : Table} {pos : Nat} {a b : Assignment}

/-- an assignment writes a cell, and moves the index entry of the row -/
def Writes (t : Table) (pos : Nat) (a : Assignment) (u : Table) : Prop :=
  ∃ c d c' is, t.columns[a.column]? = some c ∧ t.schema.columns[a.column]? = some d ∧
    c.set pos a.value = .ok c' ∧
    onIndex d.name (·.move (t.valueAt a.column pos) a.value pos) t.indexes = .ok () is ∧
    u = { t with columns := t.columns.set a.column c', indexes := is }

theorem assign_eq_ok_iff : t.assign pos a = .ok () u ↔
    (t.valueAt a.column pos = a.value ∧ u = t) ∨
      (t.valueAt a.column pos ≠ a.value ∧ t.Writes pos a u) := by
  unfold assign Writes
  dsimp only
  by_cases hsame : t.valueAt a.column pos = a.value
  · rw [if_pos hsame]
    constructor
    · intro h
      cases h
      exact Or.inl ⟨hsame, rfl⟩
    · rintro (⟨-, rfl⟩ | ⟨hne, -⟩)
      · rfl
      · exact absurd hsame hne
  · rw [if_neg hsame]
    constructor
    · intro h
      refine Or.inr ⟨hsame, ?_⟩
      split at h
      · rename_i c d hc hd
        split at h
        · cases h
        · rename_i c' hset
          obtain ⟨is, his, rfl⟩ := Outcome.within_eq_ok_iff.1 h
          exact ⟨c, d, c', is, hc, hd, hset, his, rfl⟩
      · cases h
    · rintro (⟨he, -⟩ | ⟨-, c, d, c', is, hc, hd, hset, his, rfl⟩)
      · exact absurd he hsame
      · rw [hc, hd]
        dsimp only
        rw [hset]
        dsimp only
        rw [his, Outcome.within_ok]

theorem schema_of_assign (h : t.assign pos a = .ok () u) : u.schema = t.schema := by
  rcases assign_eq_ok_iff.1 h with ⟨-, rfl⟩ | ⟨-, c, d, c', is, -, -, -, -, rfl⟩
  · rfl
  · rfl

/-- an assignment leaves the other columns as they are -/
theorem getElem?_columns_of_assign (h : t.assign pos a = .ok () u) {j : Nat}
    (hj : a.column ≠ j) : u.columns[j]? = t.columns[j]? := by
  rcases assign_eq_ok_iff.1 h with ⟨-, rfl⟩ | ⟨-, c, d, c', is, -, -, -, -, rfl⟩
  · rfl
  · exact List.getElem?_set_ne hj

theorem valueAt_of_assign (h : t.assign pos a = .ok () u) {j : Nat} (hj : a.column ≠ j) :
    u.valueAt j pos = t.valueAt j pos := by
  unfold valueAt
  rw [getElem?_columns_of_assign h hj]

/-- cells of two columns may be written in either order -/
theorem Writes.comm (hv : t.schema.Valid) (hne : a.column ≠ b.column) (ha : t.Writes pos a u)
    (hb : u.Writes pos b w) (hvalue : u.valueAt b.column pos = t.valueAt b.column pos) :
    ∃ u', t.Writes pos b u' ∧ u'.Writes pos a w := by
  obtain ⟨c, d, c', is, hc, hd, hset, his, rfl⟩ := ha
  obtain ⟨e, f, e', js, he, hf, hset', hjs, rfl⟩ := hb
  have hcolumn : (t.columns.set a.column c')[b.column]? = t.columns[b.column]? :=
    List.getElem?_set_ne hne
  have hname : d.name ≠ f.name := fun hsame => hne (hv.eq_of_name_eq hd hf hsame).1
  rw [hvalue] at hjs
  obtain ⟨ks, hks, hks'⟩ :=
    onIndex_comm hname (fun _ _ => column_of_move) (fun _ _ => column_of_move) his hjs
  refine ⟨{ t with columns := t.columns.set b.column e', indexes := ks },
    ⟨e, f, e', ks, hcolumn ▸ he, hf, hset', hks, rfl⟩, ?_⟩
  have hcolumn' : (t.columns.set b.column e')[a.column]? = t.columns[a.column]? :=
    List.getElem?_set_ne hne.symm
  have hvalue' : ({ t with columns := t.columns.set b.column e', indexes := ks } : Table).valueAt
      a.column pos = t.valueAt a.column pos := by
    unfold valueAt
    rw [hcolumn']
  refine ⟨c, d, c', js, hcolumn'.trans hc, hd, hset, ?_, ?_⟩
  · rw [hvalue']
    exact hks'
  · show Table.mk _ _ ((t.columns.set a.column c').set b.column e') _ _
      = Table.mk _ _ ((t.columns.set b.column e').set a.column c') _ _
    rw [List.set_comm _ _ hne]

/-- assignments to two columns may be made in either order -/
theorem assign_comm (hv : t.schema.Valid) (hne : a.column ≠ b.column)
    (ha : t.assign pos a = .ok () u) (hb : u.assign pos b = .ok () w) :
    ∃ u', t.assign pos b = .ok () u' ∧ u'.assign pos a = .ok () w := by
  have hvalue := valueAt_of_assign ha hne
  rcases assign_eq_ok_iff.1 ha with ⟨hsame, rfl⟩ | ⟨hdiff, hwrites⟩
  · refine ⟨w, hb, assign_eq_ok_iff.2 (Or.inl ⟨?_, rfl⟩)⟩
    rw [valueAt_of_assign hb hne.symm, hsame]
  · rcases assign_eq_ok_iff.1 hb with ⟨hsame', rfl⟩ | ⟨hdiff', hwrites'⟩
    · exact ⟨t, assign_eq_ok_iff.2 (Or.inl ⟨hvalue ▸ hsame', rfl⟩), ha⟩
    · obtain ⟨u', hu', hw⟩ := hwrites.comm hv hne hwrites' hvalue
      have hb' : t.assign pos b = .ok () u' :=
        assign_eq_ok_iff.2 (Or.inr ⟨hvalue ▸ hdiff', hu'⟩)
      refine ⟨u', hb', assign_eq_ok_iff.2 (Or.inr ⟨?_, hw⟩)⟩
      rw [valueAt_of_assign hb' hne.symm]
      exact hdiff

end

/-! ## updates -/

section
variable {t : Table} {c : Contents} {pairs pairs' : List (String × Value)}

/-- the checks let the same assignments through, in the order of the named values -/
theorem plan_perm (hv : t.schema.Valid) (hperm : pairs.Perm pairs') {k : Option Condition}
    {as : List Assignment} {p : Option Predicate} (h : t.plan pairs k = .ok (as, p)) :
    ∃ as', as.Perm as' ∧ t.plan pairs' k = .ok (as', p) := by
  obtain ⟨has, hp, hno⟩ := plan_eq_ok_iff.1 h
  obtain ⟨hsets, hdiff⟩ := sets_of_assignments has
  obtain ⟨as', hsets', hperm'⟩ := List.perm_comp_forall₂ hperm.symm hsets
  have has' : t.assignments [] pairs' = .ok as' :=
    assignments_of_sets hv hsets' ((hperm'.map (·.column)).nodup_iff.2 hdiff)
  exact ⟨as', hperm'.symm, plan_eq_ok_iff.2 ⟨has', hp, fun a ha => hno a (hperm'.mem_iff.1 ha)⟩⟩

/-- what is planned is carried out row by row -/
theorem update_of_plan {k : Option Condition} {as : List Assignment} {p : Option Predicate}
    (h : t.plan pairs k = .ok (as, p)) :
    t.update pairs k
      = (Outcome.forEach (fun pos u => Outcome.forEach (fun a u => u.assign pos a) as u)
          (t.matching p) t).map fun _ => (t.matching p).length := by
  obtain ⟨has, hp, hno⟩ := plan_eq_ok_iff.1 h
  unfold update
  rw [has]
  dsimp only
  rw [hp]
  dsimp only
  rw [List.findSome?_eq_none_iff.2 hno]

/-- the assignments of a row may be made in any order -/
theorem assignRow_perm {as as' : List Assignment} (hperm : as.Perm as')
    (hdiff : (as.map (·.column)).Nodup) {pos : Nat} {u w : Table} (hv : u.schema.Valid)
    (h : Outcome.forEach (fun a u => u.assign pos a) as u = .ok () w) :
    Outcome.forEach (fun a u => u.assign pos a) as' u = .ok () w := by
  refine Outcome.forEach_perm (·.column) (·.schema.Valid) ?_ ?_ hperm hdiff hv h
  · intro a u w hu ha
    rw [schema_of_assign ha]
    exact hu
  · intro a b u w v hu hne ha hb
    exact assign_comm hu hne ha hb

theorem schema_of_assignRow {as : List Assignment} {pos : Nat} {u w : Table}
    (h : Outcome.forEach (fun a u => u.assign pos a) as u = .ok () w) : w.schema = u.schema := by
  induction as generalizing u with
  | nil =>
    cases h
    rfl
  | cons a as ih =>
    obtain ⟨v, hv, hrest⟩ := Outcome.forEach_cons_eq_ok_iff.1 h
    rw [ih hrest, schema_of_assign hv]

/-- an update that answers does so in any order of its assignments, and leaves the same table -/
theorem update_perm_ok (hv : t.schema.Valid) (hperm : pairs.Perm pairs') {k : Option Condition}
    {as : List Assignment} {p : Option Predicate} (hplan : t.plan pairs k = .ok (as, p)) {n : Nat}
    {u : Table} (h : t.update pairs k = .ok n u) : t.update pairs' k = .ok n u := by
  obtain ⟨as', has, hplan'⟩ := plan_perm hv hperm hplan
  obtain ⟨-, hdiff⟩ := sets_of_assignments (plan_eq_ok_iff.1 hplan).1
  rw [update_of_plan hplan, Outcome.map_eq_ok_iff] at h
  rw [update_of_plan hplan', Outcome.map_eq_ok_iff]
  obtain ⟨_, hrun, hn⟩ := h
  refine ⟨(), Outcome.forEach_of_forEach (·.schema.Valid) (fun pos s w hs hw => ?_) hv hrun, hn⟩
  refine ⟨assignRow_perm has hdiff hs hw, ?_⟩
  rw [schema_of_assignRow hw]
  exact hs

/-- an update does the same whatever the order of its assignments -/
theorem Stores.update_perm (h : t.Stores c) (hperm : pairs.Perm pairs') (k : Option Condition) :
    (t.update pairs k).SameEffect (t.update pairs' k) := by
  have hv : t.schema.Valid := h.schema ▸ h.valid
  rcases update_cases h pairs k with ⟨e, hplan, hfail⟩ | ⟨as, p, u, hplan, hok, -⟩
  · rcases update_cases h pairs' k with ⟨e', -, hfail'⟩ | ⟨as', p', u', hplan', -, -⟩
    · rw [hfail, hfail']
      exact .refused e e' t
    · obtain ⟨as'', -, hplan''⟩ := plan_perm hv hperm.symm hplan'
      rw [hplan] at hplan''
      cases hplan''
  · rw [hok, update_perm_ok hv hperm hplan hok]
    exact .done _ u

/-! ## insertions -/

theorem Welcomes.perm (h : t.Welcomes pairs) (hperm : pairs.Perm pairs') : t.Welcomes pairs' where
  named :=
    ⟨fun e he => h.named.known e (hperm.mem_iff.2 he),
      (hperm.map (·.1)).nodup_iff.1 h.named.distinct⟩
  keyed d hd hkey := by
    obtain ⟨v, hv, hne⟩ := h.keyed d hd hkey
    exact ⟨v, hperm.mem_iff.1 hv, hne⟩
  typed d hd v hv := h.typed d hd v (hperm.mem_iff.2 hv)
  fresh d hd hcon v w hv := h.fresh d hd hcon v w (hperm.mem_iff.2 hv)

/-- a row stands for the same values in any order -/
theorem valuesOf_perm {s : Schema} (hperm : pairs.Perm pairs')
    (hdiff : (pairs.map (·.1)).Nodup) : s.valuesOf pairs = s.valuesOf pairs' := by
  unfold Schema.valuesOf ColumnDef.valueIn?
  refine List.map_congr_left fun d _ => ?_
  rw [Keyed.lookup_perm hperm hdiff]

/-- the checks let the same values through -/
theorem Stores.accept_perm (h : t.Stores c) (hperm : pairs.Perm pairs') {values : List Value}
    (haccept : t.accept pairs = .ok values) : t.accept pairs' = .ok values := by
  rcases h.accept_cases pairs with ⟨hwelcome, hvalues⟩ | ⟨e, -, herror⟩
  · rcases h.accept_cases pairs' with ⟨-, hvalues'⟩ | ⟨e, hrefuses, -⟩
    · rw [hvalues', ← valuesOf_perm hperm hwelcome.named.distinct, ← hvalues, haccept]
    · exact absurd hrefuses (hwelcome.perm hperm).not_refuses
  · rw [haccept] at herror
    cases herror

/-- an insertion does the same whatever the order of its values -/
theorem Stores.insert_perm (h : t.Stores c) (hperm : pairs.Perm pairs') :
    (t.insert pairs).SameEffect (t.insert pairs') := by
  rcases insert_cases h pairs with ⟨e, haccept, hfail⟩ | ⟨values, u, haccept, hok, -⟩
  · rcases insert_cases h pairs' with ⟨e', -, hfail'⟩ | ⟨values', u', haccept', -, -⟩
    · rw [hfail, hfail']
      exact .refused e e' t
    · rw [h.accept_perm hperm.symm haccept'] at haccept
      cases haccept
  · have hsame : t.insert pairs' = t.insert pairs := by
      unfold insert
      rw [haccept, h.accept_perm hperm haccept]
    rw [hsame, hok]
    exact .done _ u

end

end Table

namespace Database

/-- the order of the columns in a write does not show: an insertion or an update that gives the same
named values in another order is refused as well, or answers the same and leaves the same table; and
a row without names is one that names all columns in their order -/
theorem writes_perm {db : Database} (h : db.Reachable) {e : String × Table} (he : e ∈ db.tables) :
    (∀ pairs pairs' : List (String × Value), pairs.Perm pairs' →
        (e.2.insert pairs).SameEffect (e.2.insert pairs') ∧
          ∀ k, (e.2.update pairs k).SameEffect (e.2.update pairs' k)) ∧
      ∀ values, db.run (.insert e.1 none values)
        = db.run (.insert e.1 (some e.2.schema.names) values) := by
  obtain ⟨c, hstores, -⟩ := h.sound.tables e he
  refine ⟨fun pairs pairs' hperm =>
    ⟨hstores.insert_perm hperm, fun k => hstores.update_perm hperm k⟩, fun values => ?_⟩
  have ht : db.table e.1 = .ok e.2 := by
    unfold table table?
    rw [Keyed.lookup_of_mem h.sound.keys he]
  show (db.onTable e.1 _).map Answer.inserted = (db.onTable e.1 _).map Answer.inserted
  unfold onTable
  rw [ht]
  rfl

theorem writes_perm_users :
    ∃ t, users.table? "users" = some t ∧
      (t.insert fourthUser).answer = .ok ⟨["id", "mail"], [.int 4, .text "5"]⟩ ∧
      t.insert fourthUser.reverse = t.insert fourthUser ∧
      (t.update movedUser (some beforeThird)).answer = .ok 1 ∧
      t.update movedUser.reverse (some beforeThird) = t.update movedUser (some beforeThird) ∧
      users.run (.insert "users" none [.int 5, .null])
        = users.run (.insert "users" (some ["id", "mail"]) [.int 5, .null]) := by
  have hrun : ∃ t ∈ users.table? "users", t.schema.names = ["id", "mail"] ∧
      (t.insert fourthUser).answer = .ok ⟨["id", "mail"], [.int 4, .text "5"]⟩ ∧
      (t.update movedUser (some beforeThird)).answer = .ok 1 := by decide +kernel
  obtain ⟨t, ht, hnames, hinsert, hupdate⟩ := hrun
  obtain ⟨hperm, hnamed⟩ := writes_perm reachable_users (Keyed.mem_of_lookup ht)
  obtain ⟨hsame, -⟩ := hperm fourthUser fourthUser.reverse (List.reverse_perm _).symm
  obtain ⟨-, hsame'⟩ := hperm movedUser movedUser.reverse (List.reverse_perm _).symm
  exact ⟨t, ht, hinsert, hsame.eq_of_answer hinsert, hupdate,
    (hsame' (some beforeThird)).eq_of_answer hupdate, hnames ▸ hnamed [.int 5, .null]⟩

end Database

end TableStore
