import TableStore.Proofs.Database.Changes

/-!
# An update made twice

After an update each row that its condition asks for holds what it assigns, so there is nothing left
to do the second time.

* `Table.Settled`               the rows asked for hold the assigned values already;
* `Table.update_of_settled`     then an update goes through whatever indexes there are, and changes
                                nothing;
* `Stores.settled_update`       an update leaves such a table;
* `Database.update_again`       so it can be made again, and changes nothing the second time.
-/

namespace TableStore

namespace Table

/-- the matching rows hold the assigned values already -/
def Settled (t : Table) (as : List Assignment) (p : Option Predicate) : Prop :=
  ∀ pos ∈ t.matching p, ∀ a ∈ as, t.valueAt a.column pos = a.value

variable {t : Table} {c : Contents} {pairs : List (String × Value)} {k : Option Condition}
  {as : List Assignment} {p : Option Predicate}

/-- a value that all matching rows hold is in nobody's way -/
theorem Settled.conflict? (h : t.Settled as p) {a : Assignment} (ha : a ∈ as) :
    t.conflict? (t.matching p) a = none := by
  have hany : (t.matching p).any (fun pos => t.valueAt a.column pos ≠ a.value) = false :=
    List.any_eq_false.2 fun pos hpos => by simp [h pos hpos a ha]
  unfold Table.conflict?
  rw [hany]
  split
  · rfl
  · split <;> rfl

theorem Settled.assign (h : t.Settled as p) {pos : Nat} (hpos : pos ∈ t.matching p)
    {a : Assignment} (ha : a ∈ as) : t.assign pos a = .ok () t := by
  unfold Table.assign
  exact if_pos (h pos hpos a ha)

/-- where the matching rows hold the assigned values, an update changes nothing -/
theorem update_of_settled (h : t.Settled as p) (has : t.assignments [] pairs = .ok as)
    (hp : k.mapM t.predicate = .ok p) : t.update pairs k = .ok (t.matching p).length t := by
  have hnone : as.findSome? (t.conflict? (t.matching p)) = none :=
    List.findSome?_eq_none_iff.2 fun a ha => h.conflict? ha
  have hrun : Outcome.forEach (fun pos u => Outcome.forEach (fun a u => u.assign pos a) as u)
      (t.matching p) t = .ok () t :=
    Outcome.forEach_unchanged fun pos hpos => Outcome.forEach_unchanged fun a ha => h.assign hpos ha
  unfold update
  simp only [has, hp, hnone, hrun, Outcome.map_ok]

/-- an update leaves the rows that still match with the assigned values -/
theorem Stores.settled_update {u : Table} (h : t.Stores c) (has : t.assignments [] pairs = .ok as)
    (hu : u.Stores { c with
      rows := c.rows.map fun row => if selects p row then assigned as row else row }) :
    u.Settled as p := by
  intro pos hpos a ha
  obtain ⟨row', hrow', hselects⟩ := hu.mem_matching.1 hpos
  rw [hu.valueAt_eq, hrow', Option.bind_some]
  obtain ⟨row, hrow, rfl⟩ := List.mem_map.1 (List.mem_of_getElem? hrow')
  -- a row that matches now has matched before, and so it has been assigned to
  by_cases hbefore : selects p row = true
  · obtain ⟨d, hd, -⟩ := takes_of_assignments has a ha
    have hlt := (h.admits.fits row hrow).lt_length (h.schema ▸ hd)
    rw [if_pos hbefore, getElem?_assigned_of_mem ha (sets_of_assignments has).2 hlt]
    rfl
  · rw [if_neg hbefore] at hselects
    exact absurd hselects hbefore

/-- an update that went through goes through again, for no more rows, and changes nothing -/
theorem Stores.update_repeated (h : t.Stores c) {n : Nat} (hn : (t.update pairs k).answer = .ok n) :
    ∃ m ≤ n, (t.update pairs k).state.update pairs k = .ok m (t.update pairs k).state := by
  rcases update_cases h pairs k with ⟨e, -, hupdate⟩ | ⟨as, p, u, hplan, hupdate, hstores⟩
  · rw [hupdate] at hn
    cases hn
  rw [hupdate] at hn ⊢
  cases hn
  obtain ⟨has, hp, -⟩ := plan_eq_ok_iff.1 hplan
  have hname : t.name = u.name := h.name.trans hstores.name.symm
  have hschema : t.schema = u.schema := h.schema.trans hstores.schema.symm
  have has' : u.assignments [] pairs = .ok as := by rw [← assignments_congr hname hschema, has]
  have hp' : k.mapM u.predicate = .ok p := by rw [← predicate_congr hname hschema, hp]
  refine ⟨_, ?_, update_of_settled (h.settled_update has hstores) has' hp'⟩
  show (u.matching p).length ≤ _
  rw [hstores.length_matching, List.countP_map]
  refine List.countP_mono_left fun row _ hselects => ?_
  by_contra hbefore
  rw [Function.comp_apply, if_neg hbefore] at hselects
  exact hbefore hselects

end Table

namespace Database

/-- in a table that can be reached an update that went through goes through again, for no more rows
than before, and leaves the table as it is, cells and indexes -/
theorem update_again {db : Database} (h : db.Reachable) {e : String × Table} (he : e ∈ db.tables)
    {pairs : List (String × Value)} {k : Option Condition} {n : Nat}
    (hn : (e.2.update pairs k).answer = .ok n) :
    ∃ m ≤ n, (e.2.update pairs k).state.update pairs k = .ok m (e.2.update pairs k).state := by
  obtain ⟨c, hstores, -⟩ := h.sound.tables e he
  exact hstores.update_repeated hn

/-- another key below that of the third user -/
def secondKey : List (String × Value) := [("id", .text "2"), ("mail", .null)]

/-- the first user is asked for again under the new key, which the index holds by now -/
theorem update_again_users :
    ∃ t u, users.table? "users" = some t ∧ t.update secondKey (some beforeThird) = .ok 1 u ∧
      u ≠ t ∧ u.update secondKey (some beforeThird) = .ok 1 u := by
  have hrun : ∃ t ∈ users.table? "users", (t.update secondKey (some beforeThird)).answer = .ok 1 ∧
      (t.update secondKey (some beforeThird)).state ≠ t ∧
      ((t.update secondKey (some beforeThird)).state.update secondKey (some beforeThird)).answer
        = .ok 1 := by
    decide +kernel
  obtain ⟨t, ht, hfirst, hother, hsecond⟩ := hrun
  have hmem : ("users", t) ∈ users.tables := Keyed.mem_of_lookup ht
  obtain ⟨m, -, hagain⟩ := update_again reachable_users hmem hfirst
  rw [hagain] at hsecond
  cases hsecond
  exact ⟨t, _, ht, congrArg (Outcome.mk · _) hfirst, hother, hagain⟩

end Database

end TableStore
