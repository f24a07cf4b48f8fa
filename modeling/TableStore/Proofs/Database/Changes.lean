import TableStore.Proofs.Database.Consistency
import TableStore.Proofs.Query.Join
import TableStore.Proofs.Table.Acceptance
import TableStore.Proofs.Table.Assignment
import TableStore.Proofs.Table.Delete

/-!
# What changes do to the rows

Each change of a table is known by the rows before and after it, whatever way it takes through the
cells and the indexes.

* `Table.Refilled`    a table with other rows, and indexes that answer what these say;
* `Database.insert_exact_of_reachable`   an insertion adds the row that is described, unless that
                      breaks a rule, and tells the first rule broken;
* `Database.update_exact_of_reachable`   an update rewrites the rows asked for, exactly if it may;
* `Database.delete_exact_of_reachable`   a deletion keeps the rows not asked for, or does nothing.
-/

namespace TableStore

namespace Table

/-- a table with other rows, and indexes that answer what these say -/
structure Refilled (t : Table) (rows : List Row) (u : Table) : Prop where
  name : u.name = t.name
  schema : u.schema = t.schema
  rowCount : u.rowCount = rows.length
  rows : u.rows = rows
  indexes : u.IndexesExact

section
variable {t : Table} {c : Contents} {pairs : List (String × Value)} {k : Option Condition}
  {wanted : Row → Bool}

theorem Stores.refilled (h : t.Stores c) {u : Table} {rows : List (List Value)}
    (hu : u.Stores { c with rows := rows }) :
    t.Refilled (rows.map (Row.mk c.schema.names)) u where
  name := hu.name.trans h.name.symm
  schema := hu.schema.trans h.schema.symm
  rowCount := hu.lays.count.trans (List.length_map _).symm
  rows := hu.rows_eq
  indexes := hu.indexesExact

/-! ## the rows asked for -/

theorem Stores.countP_rows (h : t.Stores c) {f : List Value → Bool}
    (hwanted : ∀ row ∈ c.rows, wanted ⟨c.schema.names, row⟩ = f row) :
    t.rows.countP wanted = c.rows.countP f := by
  rw [h.rows_eq, List.countP_map]
  refine List.countP_congr fun row hrow => ?_
  rw [Function.comp_apply, hwanted row hrow]

theorem Stores.filter_rows (h : t.Stores c) {f : List Value → Bool}
    (hwanted : ∀ row ∈ c.rows, wanted ⟨c.schema.names, row⟩ = f row) :
    t.rows.filter (!wanted ·) = (c.rows.filter (!f ·)).map (Row.mk c.schema.names) := by
  rw [h.rows_eq, List.filter_map]
  refine congrArg (List.map _) (List.filter_congr fun row hrow => ?_)
  rw [Function.comp_apply, hwanted row hrow]

/-! ## the three changes -/

/-- what is inserted is welcome, and what is refused breaks a rule -/
theorem Stores.insert_exact (h : t.Stores c) (pairs : List (String × Value)) :
    (t.Welcomes pairs ∧ ∃ u, t.insert pairs = .ok (t.schema.rowOf pairs) u ∧
        t.Refilled (t.rows ++ [t.schema.rowOf pairs]) u) ∨
      ∃ e, t.Refuses pairs e ∧ t.insert pairs = .fail e t := by
  rcases h.accept_cases pairs with ⟨hwelcome, haccept⟩ | ⟨e, hrefuses, haccept⟩
  · rcases insert_cases h pairs with ⟨e, herror, -⟩ | ⟨values, u, hvalues, hinsert, hstores⟩
    · rw [haccept] at herror
      cases herror
    rw [haccept] at hvalues
    cases hvalues
    have hrow : t.schema.rowOf pairs = ⟨c.schema.names, t.schema.valuesOf pairs⟩ :=
      congrArg (Row.mk · (t.schema.valuesOf pairs)) (congrArg Schema.names h.schema)
    have hrefilled := h.refilled hstores
    rw [List.map_append, ← h.rows_eq] at hrefilled
    rw [hrow]
    exact Or.inl ⟨hwelcome, u, hinsert, hrefilled⟩
  · refine Or.inr ⟨e, hrefuses, ?_⟩
    unfold insert
    rw [haccept]

/-- a permitted update rewrites the rows asked for -/
theorem Stores.update_of_permits (h : t.Stores c) (ha : t.Asks k wanted)
    (hp : t.Permits pairs wanted) :
    ∃ u, t.update pairs k = .ok (t.rows.countP wanted) u ∧
      t.Refilled (t.rewritten pairs wanted) u := by
  obtain ⟨p, hpredicate, hwanted⟩ := h.mapM_of_asks ha
  obtain ⟨as, hplan⟩ := (h.plan_iff hpredicate hwanted).2 hp
  obtain ⟨has, -, -⟩ := plan_eq_ok_iff.1 hplan
  obtain ⟨hsets, -⟩ := sets_of_assignments has
  rcases update_cases h pairs k with ⟨e, herror, -⟩ | ⟨as', p', u, hplan', hupdate, hstores⟩
  · rw [hplan] at herror
    cases herror
  rw [hplan] at hplan'
  cases hplan'
  refine ⟨u, (h.countP_rows hwanted).symm ▸ hupdate, ?_⟩
  rw [h.rewritten_eq hsets hp.assigns.named.distinct hwanted]
  exact h.refilled hstores

/-- an update that answers asks for rows, and may rewrite them -/
theorem Stores.permits_of_update (h : t.Stores c) {n : Nat}
    (hn : (t.update pairs k).answer = .ok n) :
    ∃ wanted, t.Asks k wanted ∧ t.Permits pairs wanted := by
  rcases update_cases h pairs k with ⟨e, -, hupdate⟩ | ⟨as, p, u, hplan, -, -⟩
  · rw [hupdate] at hn
    cases hn
  obtain ⟨-, hpredicate, -⟩ := plan_eq_ok_iff.1 hplan
  obtain ⟨wanted, ha, hwanted⟩ := h.asks_of_mapM hpredicate
  exact ⟨wanted, ha, (h.plan_iff hpredicate hwanted).1 ⟨as, hplan⟩⟩

/-- a deletion keeps the rows not asked for -/
theorem Stores.delete_of_asks (h : t.Stores c) (ha : t.Asks k wanted) :
    ∃ u, t.delete k = .ok (t.rows.countP wanted) u ∧
      t.Refilled (t.rows.filter (!wanted ·)) u := by
  obtain ⟨p, hpredicate, hwanted⟩ := h.mapM_of_asks ha
  rcases delete_cases h k with ⟨e, herror, -⟩ | ⟨p', u, hpredicate', hdelete, hstores⟩
  · rw [hpredicate] at herror
    cases herror
  rw [hpredicate] at hpredicate'
  cases hpredicate'
  refine ⟨u, (h.countP_rows hwanted).symm ▸ hdelete, ?_⟩
  rw [h.filter_rows hwanted]
  exact h.refilled hstores

end

end Table

namespace Database

section
variable {db : Database}

/-- a table takes exactly the rows that keep all rules, as the last ones, and names the first rule
that any other row breaks -/
theorem insert_exact_of_reachable (h : db.Reachable) {e : String × Table} (he : e ∈ db.tables)
    (pairs : List (String × Value)) :
    ((∃ r, (e.2.insert pairs).answer = .ok r) ↔ e.2.Welcomes pairs) ∧
      (e.2.Welcomes pairs → ∃ u, e.2.insert pairs = .ok (e.2.schema.rowOf pairs) u ∧
        e.2.Refilled (e.2.rows ++ [e.2.schema.rowOf pairs]) u) ∧
      ∀ error, (e.2.insert pairs).answer = .error error → e.2.Refuses pairs error := by
  obtain ⟨c, hstores, -⟩ := h.sound.tables e he
  rcases hstores.insert_exact pairs with ⟨hwelcome, u, hinsert, hrows⟩ | ⟨error, hrefuses, hinsert⟩
  · refine ⟨⟨fun _ => hwelcome, fun _ => ⟨_, by rw [hinsert]; rfl⟩⟩, fun _ => ⟨u, hinsert, hrows⟩,
      fun error herror => ?_⟩
    rw [hinsert] at herror
    cases herror
  · refine ⟨⟨fun ⟨r, hr⟩ => ?_, fun hwelcome => absurd hrefuses hwelcome.not_refuses⟩,
      fun hwelcome => absurd hrefuses hwelcome.not_refuses, fun error' herror => ?_⟩
    · rw [hinsert] at hr
      cases hr
    · rw [hinsert] at herror
      cases herror
      exact hrefuses

/-- a fourth user, each value of the wrong type but one that can be brought to the right one -/
def fourthUser : List (String × Value) := [("mail", .int 5), ("id", .text "4")]

/-- a user with the address of the first one -/
def takenMail : List (String × Value) := [("id", .int 4), ("mail", .text "c@x")]

theorem insert_exact_users :
    ∃ t u, users.table? "users" = some t ∧
      t.insert fourthUser = .ok ⟨["id", "mail"], [.int 4, .text "5"]⟩ u ∧
      t.Refilled (t.rows ++ [⟨["id", "mail"], [.int 4, .text "5"]⟩]) u ∧
      t.Refuses takenMail (.constraint "mail" (.duplicate false (.text "c@x"))) := by
  have hrun : ∃ t ∈ users.table? "users",
      t.schema.rowOf fourthUser = ⟨["id", "mail"], [.int 4, .text "5"]⟩ ∧
        (t.insert fourthUser).answer = .ok ⟨["id", "mail"], [.int 4, .text "5"]⟩ ∧
        (t.insert takenMail).answer
          = .error (.constraint "mail" (.duplicate false (.text "c@x"))) := by decide +kernel
  obtain ⟨t, ht, hrow, hok, herror⟩ := hrun
  have hmem : ("users", t) ∈ users.tables := Keyed.mem_of_lookup ht
  obtain ⟨hiff, hinsert, -⟩ := insert_exact_of_reachable reachable_users hmem fourthUser
  obtain ⟨u, hu, hrefilled⟩ := hinsert (hiff.1 ⟨_, hok⟩)
  obtain ⟨-, -, hrefuses⟩ := insert_exact_of_reachable reachable_users hmem takenMail
  rw [hrow] at hu hrefilled
  exact ⟨t, u, ht, hu, hrefilled, hrefuses _ herror⟩

/-- an update answers exactly if its condition asks for rows and these may be rewritten so; and then
they are, each in its place, and counted -/
theorem update_exact_of_reachable (h : db.Reachable) {e : String × Table} (he : e ∈ db.tables)
    (pairs : List (String × Value)) (k : Option Condition) :
    ((∃ n, (e.2.update pairs k).answer = .ok n) ↔
        ∃ wanted, e.2.Asks k wanted ∧ e.2.Permits pairs wanted) ∧
      ∀ wanted, e.2.Asks k wanted → e.2.Permits pairs wanted →
        ∃ u, e.2.update pairs k = .ok (e.2.rows.countP wanted) u ∧
          e.2.Refilled (e.2.rewritten pairs wanted) u := by
  obtain ⟨c, hstores, -⟩ := h.sound.tables e he
  refine ⟨⟨fun ⟨n, hn⟩ => hstores.permits_of_update hn, fun ⟨wanted, ha, hp⟩ => ?_⟩,
    fun wanted ha hp => hstores.update_of_permits ha hp⟩
  obtain ⟨u, hupdate, -⟩ := hstores.update_of_permits ha hp
  exact ⟨_, congrArg Outcome.answer hupdate⟩

/-- another key, and the address that the first user has -/
def movedUser : List (String × Value) := [("id", .text "7"), ("mail", .text "c@x")]

/-- the users before the third one -/
def beforeThird : Condition := ⟨⟨none, "id"⟩, .less, .text "3"⟩

theorem update_exact_users :
    ∃ t u, users.table? "users" = some t ∧ t.update movedUser (some beforeThird) = .ok 1 u ∧
      t.Refilled [⟨["id", "mail"], [.int 7, .text "c@x"]⟩, ⟨["id", "mail"], [.int 3, .null]⟩] u ∧
      ¬ t.Permits movedUser fun _ => true := by
  have hrun : ∃ t ∈ users.table? "users", ⟨"id", .int, true, true⟩ ∈ t.schema.columns ∧
      (t.update movedUser (some beforeThird)).answer = .ok 1 ∧
      (t.update movedUser none).answer = .error (.constraint "id" (.duplicate true (.int 7))) ∧
      t.rows.countP (Row.satisfies "id" .less (.int 3)) = 1 ∧
      t.rewritten movedUser (Row.satisfies "id" .less (.int 3))
        = [⟨["id", "mail"], [.int 7, .text "c@x"]⟩, ⟨["id", "mail"], [.int 3, .null]⟩] := by
    decide +kernel
  obtain ⟨t, ht, hcolumn, hok, herror, hcount, hrows⟩ := hrun
  have hmem : ("users", t) ∈ users.tables := Keyed.mem_of_lookup ht
  have hasks : t.Asks (some beforeThird) (Row.satisfies "id" .less (.int 3)) :=
    .cell hcolumn rfl rfl
  obtain ⟨hiff, hupdate⟩ := update_exact_of_reachable reachable_users hmem movedUser beforeThird
  obtain ⟨hiff', -⟩ := update_exact_of_reachable reachable_users hmem movedUser none
  have hpermits : t.Permits movedUser (Row.satisfies "id" .less (.int 3)) := by
    obtain ⟨c, hstores, -⟩ := reachable_users.sound.tables _ hmem
    obtain ⟨wanted, hasks', hpermits⟩ := hiff.1 ⟨1, hok⟩
    rwa [hasks.unique (hstores.schema ▸ hstores.valid) hasks']
  have hrefused : ¬ t.Permits movedUser fun _ => true := by
    intro hpermits
    obtain ⟨n, hn⟩ := hiff'.2 ⟨_, .nothing, hpermits⟩
    rw [herror] at hn
    cases hn
  obtain ⟨u, hu, hrefilled⟩ := hupdate _ hasks hpermits
  rw [hcount] at hu
  rw [hrows] at hrefilled
  exact ⟨t, u, ht, hu, hrefilled, hrefused⟩

/-- a deletion answers if its condition asks for rows, keeps the others in their order, and counts
those that go; without a condition all rows go; and where it fails no row is gone -/
theorem delete_exact_of_reachable (h : db.Reachable) {e : String × Table} (he : e ∈ db.tables) :
    (∀ k wanted, e.2.Asks k wanted → ∃ u, e.2.delete k = .ok (e.2.rows.countP wanted) u ∧
        e.2.Refilled (e.2.rows.filter (!wanted ·)) u) ∧
      (∃ u, e.2.delete none = .ok e.2.rows.length u ∧ e.2.Refilled [] u) ∧
      ∀ k error, (e.2.delete k).answer = .error error → (e.2.delete k).state = e.2 := by
  obtain ⟨c, hstores, -⟩ := h.sound.tables e he
  refine ⟨fun k wanted ha => hstores.delete_of_asks ha, ?_, fun k error herror => ?_⟩
  · obtain ⟨u, hdelete, hrows⟩ := hstores.delete_of_asks .nothing
    rw [List.countP_true] at hdelete
    rw [List.filter_eq_nil_iff.2 (by simp)] at hrows
    exact ⟨u, hdelete, hrows⟩
  · rcases Table.delete_cases hstores k with ⟨e', -, hdelete⟩ | ⟨p, u, -, hdelete, -⟩
    · rw [hdelete]
      rfl
    · rw [hdelete] at herror
      cases herror

/-- orders for as much as the text says -/
def forTwenty : Condition := ⟨⟨some "orders", "total"⟩, .equal, .text "20"⟩

theorem delete_exact_shop :
    ∃ t u, (shop ["UNIQUE"]).table? "orders" = some t ∧ t.delete (some forTwenty) = .ok 1 u ∧
      t.Refilled [⟨["buyer", "total"], [.text "3", .int 30]⟩,
        ⟨["buyer", "total"], [.text "1", .int 10]⟩] u := by
  have hrun : ∃ t ∈ (shop ["UNIQUE"]).table? "orders", t.name = "orders" ∧
      .plain "total" .int ∈ t.schema.columns ∧
      t.rows.countP (Row.satisfies "total" .equal (.int 20)) = 1 ∧
      t.rows.filter (!Row.satisfies "total" .equal (.int 20) ·)
        = [⟨["buyer", "total"], [.text "3", .int 30]⟩,
          ⟨["buyer", "total"], [.text "1", .int 10]⟩] := by decide +kernel
  obtain ⟨t, ht, hname, hcolumn, hcount, hrows⟩ := hrun
  have hmem : ("orders", t) ∈ (shop ["UNIQUE"]).tables := Keyed.mem_of_lookup ht
  have hasks : t.Asks (some forTwenty) (Row.satisfies "total" .equal (.int 20)) :=
    .cell hcolumn (by rw [hname]; rfl) rfl
  obtain ⟨hdelete, -⟩ := delete_exact_of_reachable (reachable_shop ["UNIQUE"]) hmem
  obtain ⟨u, hu, hrefilled⟩ := hdelete (some forTwenty) _ hasks
  rw [hcount] at hu
  rw [hrows] at hrefilled
  exact ⟨t, u, ht, hu, hrefilled⟩

end

end Database

end TableStore
