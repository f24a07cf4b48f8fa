import Mathlib.Data.List.Forall2
import TableStore.Proofs.Database.Search
import TableStore.Proofs.Query.Join

/-!
# A condition on a join

A condition on a column of one table means the same whether it is asked of the table or of the rows
that are joined: the search of the table finds positions, and the join keeps the rows that come from
them.

* `Join.StandAt`, `Join.places`   the positions in the two tables that joined rows come from;
* `Join.keepFrom`                 the rows that come from given positions on one side;
* `Join.ofTables_cases`           a join fails whatever is asked of it, or filters the rows at its
                                  places and narrows them;
* `Join.filter_side`              the filter keeps the rows that come from the positions which the
                                  search finds, or both fail;
* `Database.select_where`         so a query with a condition answers with the rows of the query
                                  without it that come from these positions.
-/

namespace TableStore

open Sql

/-- the one of the two that is on a side -/
def Side.pick {α : Type} (side : Side) (left right : α) : α :=
  match side with
  | .left => left
  | .right => right

theorem Side.pick_map {α β : Type} (side : Side) (f : α → β) (left right : α) :
    side.pick (f left) (f right) = f (side.pick left right) := by
  cases side <;> rfl

/-! ## lists in step -/

section
variable {α β γ δ : Type}

theorem forall₂_of_map_some {f : α → Option β} {as : List α} {bs : List β}
    (h : bs.map some = as.map f) : List.Forall₂ (fun a b => f a = some b) as bs := by
  have heq : List.Forall₂ Eq (as.map f) (bs.map some) := by
    rw [List.forall₂_eq_eq_eq]
    exact h.symm
  rwa [List.forall₂_map_left_iff, List.forall₂_map_right_iff] at heq

theorem forall₂_product {R : α → β → Prop} {S : γ → δ → Prop} {as : List α} {bs : List β}
    {cs : List γ} {ds : List δ} (h : List.Forall₂ R as bs) (h' : List.Forall₂ S cs ds) :
    List.Forall₂ (fun p x => R p.1 x.1 ∧ S p.2 x.2) (as.product cs) (bs.product ds) := by
  refine List.rel_flatMap h fun a b hab => ?_
  exact List.rel_map (fun c d hcd => ⟨hab, hcd⟩) h'

end

theorem Table.Stores.forall₂_rows {t : Table} {c : Contents} (h : t.Stores c) :
    List.Forall₂ (fun pos row => t.row? pos = some row) (List.range t.rowCount) t.rows := by
  refine forall₂_of_map_some (map_some_filterMap fun pos hpos => ?_)
  exact h.isSome_row? (p := none) hpos

namespace Join

/-! ## where joined rows come from -/

/-- two rows stand at these positions of two tables -/
structure StandAt (l r : Table) (place : Nat × Nat) (p : RowPair) : Prop where
  left : l.row? place.1 = some p.1
  right : r.row? place.2 = some p.2

theorem StandAt.pick {l r : Table} {place : Nat × Nat} {p : RowPair} (h : StandAt l r place p)
    (side : Side) : (side.pick l r).row? (side.pick place.1 place.2) = some (side.pick p.1 p.2) := by
  cases side with
  | left => exact h.left
  | right => exact h.right

/-- the rows at these positions belong together -/
def meetsAt (l r : Table) (a b : String × DataType) (place : Nat × Nat) : Bool :=
  match l.row? place.1, r.row? place.2 with
  | some x, some y => Relation.meets a b (x, y)
  | _, _ => false

/-- the positions of the rows that are joined, by the left one and then by the right one -/
def places (l r : Table) (j : JoinClause) : List (Nat × Nat) :=
  match Relation.related? l.relation r.relation j with
  | none => []
  | some (a, b) =>
    ((List.range l.rowCount).product (List.range r.rowCount)).filter (meetsAt l r a b)

/-- the rows that stand at these places, joined and narrowed, make the answer -/
def Shows (l r : Table) (projection : Projection) (places : List (Nat × Nat)) (a : QueryResult) :
    Prop :=
  ∃ ps, List.Forall₂ (StandAt l r) places ps ∧
    project (Layout.ofTables l r) (ps.map RowPair.joined) projection = .ok a

/-- the rows that come from one of the positions found on a side -/
def keepFrom {α : Type} (side : Side) (found : List Nat) (places : List (Nat × Nat))
    (rows : List α) : List α :=
  ((places.zip rows).filter fun e => side.pick e.1.1 e.1.2 ∈ found).map (·.2)

theorem keepFrom_map {α β : Type} (side : Side) (found : List Nat) (places : List (Nat × Nat))
    (rows : List α) (f : α → β) :
    keepFrom side found places (rows.map f) = (keepFrom side found places rows).map f := by
  unfold keepFrom
  rw [List.zip_map_right, List.filter_map, List.map_map, List.map_map]
  rfl

/-- rows are kept by where they come from as they are kept by what they hold, if the positions found
are those of the rows that hold it -/
theorem keepFrom_eq_filter {α : Type} {R : Nat × Nat → α → Prop} {side : Side} {found : List Nat}
    {keeps : α → Bool} {places : List (Nat × Nat)} {rows : List α}
    (h : List.Forall₂ R places rows)
    (hkeeps : ∀ place row, R place row → (side.pick place.1 place.2 ∈ found ↔ keeps row = true)) :
    keepFrom side found places rows = rows.filter keeps := by
  unfold keepFrom
  induction h with
  | nil => rfl
  | @cons place row places rows hrow _ ih =>
    have hhead : decide (side.pick place.1 place.2 ∈ found) = keeps row := by
      rw [Bool.eq_iff_iff, decide_eq_true_iff, hkeeps place row hrow]
    rw [List.zip_cons_cons, List.filter_cons, List.filter_cons, hhead]
    split
    · rw [List.map_cons, ih]
    · exact ih

variable {l r : Table} {cl cr : Contents}

/-- the rows that belong together stand at the places of the join -/
theorem standAt_filter (hl : l.Stores cl) (hr : r.Stores cr) (a b : String × DataType) :
    List.Forall₂ (StandAt l r)
      (((List.range l.rowCount).product (List.range r.rowCount)).filter (meetsAt l r a b))
      ((l.rows.product r.rows).filter (Relation.meets a b)) := by
  have hrows := (forall₂_product hl.forall₂_rows hr.forall₂_rows).imp
    fun (place : Nat × Nat) (p : RowPair) h => (⟨h.1, h.2⟩ : StandAt l r place p)
  refine List.rel_filter (fun place p h => ?_) hrows
  unfold meetsAt
  simp only [h.left, h.right]

/-! ## joins as filtered and narrowed rows -/

/-- a join fails whatever is asked of it, or filters the rows at its places and narrows them -/
theorem ofTables_cases (hl : l.Stores cl) (hr : r.Stores cr) (j : JoinClause) :
    (∃ e, ∀ q, ofTables l r q j = .error e) ∨
      l.name ≠ r.name ∧ ∃ ps, List.Forall₂ (StandAt l r) (places l r j) ps ∧
        (∀ p ∈ ps, p.1 ∈ l.rows ∧ p.2 ∈ r.rows) ∧
        ∀ q, ofTables l r q j
          = (filter (Layout.ofTables l r) (ps.map RowPair.joined) q.condition).bind fun rows =>
              project (Layout.ofTables l r) rows q.projection := by
  unfold ofTables places
  by_cases hne : l.name = r.name
  · exact Or.inl ⟨_, fun q => if_pos hne⟩
  simp only [if_neg hne]
  rcases columns_cases l r j with ⟨hcolumns, -⟩ | ⟨i, k, dl, dr, hcolumns, hdl, hdr, hrelated⟩
  · exact Or.inl ⟨_, fun q => by rw [hcolumns]⟩
  · refine Or.inr ⟨hne, (l.rows.product r.rows).filter (Relation.meets (dl.name, dl.type)
      (dr.name, dr.type)), ?_, fun p hp => List.mem_product.1 (List.mem_filter.1 hp).1, fun q => ?_⟩
    · rw [hrelated]
      exact standAt_filter hl hr _ _
    · simp only [hcolumns, hdr, pairs_eq hl hr hdl hdr]
      cases filter (Layout.ofTables l r) _ q.condition <;> rfl

/-- a projection fails whatever the rows are, or narrows each row by itself -/
theorem project_cases (y : Layout) (projection : Projection) :
    (∃ e, ∀ rows, project y rows projection = .error e) ∨
      ∃ labels narrowed, ∀ rows, project y rows projection = .ok ⟨labels, rows.map narrowed⟩ := by
  cases projection with
  | all =>
    refine Or.inr ⟨y.labels, id, fun rows => ?_⟩
    rw [List.map_id]
    rfl
  | columns refs =>
    simp only [project]
    cases y.resolveAll refs with
    | error e => exact Or.inl ⟨e, fun rows => rfl⟩
    | ok positions => exact Or.inr ⟨refs.map (·.label), pick positions, fun rows => rfl⟩

/-! ## conditions on one side -/

theorem field?_side {L R : Relation} (hne : L.name ≠ R.name) {side : Side} {ref : ColumnRef}
    (href : ref.table = some (side.pick L R).name) :
    Relation.field? L R ref
      = ((side.pick L R).type? ref.column).map (Field.mk side ref.column) := by
  unfold Relation.field?
  simp only [href]
  cases side with
  | left => exact if_pos rfl
  | right => exact (if_neg (Ne.symm hne)).trans (if_pos rfl)

/-- a condition on a column of one side fails where that side has no such column, or the type of
the column does not take the literal -/
theorem keep_side_error {L R : Relation} (hne : L.name ≠ R.name) {side : Side} {k : Condition}
    (hk : k.column.table = some (side.pick L R).name)
    (hv : ((side.pick L R).type? k.column.column).bind (·.coerce? k.value) = none)
    (ps : List RowPair) : ∃ e, Relation.keep L R (some k) ps = .error e := by
  simp only [Relation.keep, Relation.field, field?_side hne hk]
  cases htype : (side.pick L R).type? k.column.column with
  | none => exact ⟨_, rfl⟩
  | some type =>
    rw [htype, Option.bind_some] at hv
    simp only [Option.map_some, hv]
    exact ⟨_, rfl⟩

/-- or keeps the pairs whose row on that side has a cell as asked for -/
theorem keep_side {L R : Relation} (hne : L.name ≠ R.name) {side : Side} {k : Condition} {v : Value}
    (hk : k.column.table = some (side.pick L R).name)
    (hv : ((side.pick L R).type? k.column.column).bind (·.coerce? k.value) = some v)
    (ps : List RowPair) :
    Relation.keep L R (some k) ps
      = .ok (ps.filter fun p =>
          ((side.pick p.1 p.2).get? k.column.column).any (k.op.holds · v)) := by
  obtain ⟨type, htype, hvalue⟩ := Option.bind_eq_some_iff.1 hv
  simp only [Relation.keep, Relation.field, field?_side hne hk, htype, Option.map_some, hvalue]
  cases side <;> rfl

/-- the filter keeps the rows that come from the positions which the search finds, or both fail -/
theorem filter_side (hl : l.Stores cl) (hr : r.Stores cr) (hdl : l.relation.DotFree)
    (hdr : r.relation.DotFree) (hne : l.name ≠ r.name) {side : Side} {k : Condition}
    (hk : k.column.table = some (side.pick l r).name) {places : List (Nat × Nat)}
    {ps : List RowPair} (hplaces : List.Forall₂ (StandAt l r) places ps)
    (hps : ∀ p ∈ ps, p.1 ∈ l.rows ∧ p.2 ∈ r.rows) :
    (∃ e e', filter (Layout.ofTables l r) (ps.map RowPair.joined) (some k) = .error e ∧
        (side.pick l r).find (some k) = .error e') ∨
      ∃ found rows, (side.pick l r).FindsAt k found rows ∧
        filter (Layout.ofTables l r) (ps.map RowPair.joined) (some k)
          = .ok (keepFrom side found places (ps.map RowPair.joined)) := by
  have hplain : ∀ k' ∈ some k, k'.column.Plain := by
    rintro _ ⟨⟩ hnone
    rw [hk] at hnone
    cases hnone
  have hrelation := side.pick_map Table.relation l r
  have hk' : k.column.table = some (side.pick l.relation r.relation).name := by
    rw [hrelation]
    exact hk
  obtain ⟨c, hstores⟩ : ∃ c, (side.pick l r).Stores c := by
    cases side with
    | left => exact ⟨cl, hl⟩
    | right => exact ⟨cr, hr⟩
  have hname : k.column.columnIn? (side.pick l r).name = some k.column.column := by
    unfold ColumnRef.columnIn?
    simp only [hk, if_pos]
  -- the type of the column takes the literal for the search, or for neither
  have hbind : ((side.pick l.relation r.relation).type? k.column.column).bind (·.coerce? k.value)
      = ((side.pick l r).schema.column? k.column.column).bind (·.type.coerce? k.value) := by
    rw [hrelation, Table.type?_relation, Option.bind_map]
    rfl
  rw [filter_eq hl hr hdl hdr hne hplain hps]
  rcases hstores.find_cases hname with ⟨⟨e', hfind⟩, hv⟩ | ⟨v, rows, hv, hfinds⟩
  · obtain ⟨e, hkeep⟩ := keep_side_error hne hk' (hbind.trans hv) ps
    rw [hkeep]
    exact Or.inl ⟨e, e', rfl, hfind⟩
  · refine Or.inr ⟨_, rows, hfinds, ?_⟩
    rw [keep_side hne hk' (hbind.trans hv), keepFrom_map]
    refine congrArg (fun qs : List RowPair => Except.ok (qs.map RowPair.joined)) ?_
    exact (keepFrom_eq_filter hplaces fun place p h =>
      Table.mem_positionsWhere_of_row? (h.pick side)).symm

end Join

namespace Database

variable {db : Database} {q : Select} {j : JoinClause} {l r : Table}

/-- a query of two tables with a condition on a column of one of them answers if it answers without
the condition and the search of that table answers, and then with those of the rows that come from
the positions which the search finds -/
theorem select_where (h : db.Reachable) (hdot : db.DotFree) (hjoin : q.join = some j)
    (hl : db.table? q.table = some l) (hr : db.table? j.table = some r)
    {side : Side} {k : Condition} (hk : k.column.table = some (side.pick q.table j.table)) :
    ((∃ b, db.select { q with condition := some k } = .ok b) ↔
      (∃ a, db.select { q with condition := none } = .ok a) ∧
        ∃ rows, (side.pick l r).find (some k) = .ok rows) ∧
    ∀ a rows, db.select { q with condition := none } = .ok a →
      (side.pick l r).find (some k) = .ok rows →
      ∃ found, (side.pick l r).FindsAt k found rows ∧
        Join.Shows l r q.projection (Join.places l r j) a ∧
        db.select { q with condition := some k }
          = .ok { a with rows := Join.keepFrom side found (Join.places l r j) a.rows } := by
  obtain ⟨cl, hstores, hname⟩ := h.sound.stores hl
  obtain ⟨cr, hstores', hname'⟩ := h.sound.stores hr
  have hl' : l.name = q.table := hstores.name.trans hname
  have hr' : r.name = j.table := hstores'.name.trans hname'
  have hk' : k.column.table = some (side.pick l r).name := by
    rw [hk, ← hl', ← hr', side.pick_map Table.name]
  have hselect (condition : Option Condition) : db.select { q with condition }
      = Join.ofTables l r { q with condition } j := select_eq_ofTables hjoin hl hr
  rw [hselect, hselect]
  rcases Join.ofTables_cases hstores hstores' j with ⟨e, hfails⟩ | ⟨hne, ps, hplaces, hps, hjoins⟩
  · rw [hfails, hfails]
    exact ⟨by simp, fun _ _ ha => by cases ha⟩
  · have hdl : l.relation.DotFree := hdot _ (Keyed.mem_of_lookup hl)
    have hdr : r.relation.DotFree := hdot _ (Keyed.mem_of_lookup hr)
    rw [hjoins, hjoins]
    rcases Join.filter_side hstores hstores' hdl hdr hne hk' hplaces hps with
      ⟨e, e', hfilter, hfind⟩ | ⟨found, rows, hfinds, hfilter⟩
    · simp only [hfilter, hfind, Except.bind]
      exact ⟨by simp, fun _ _ _ hrows => by cases hrows⟩
    · have hall : Join.filter (Layout.ofTables l r) (ps.map RowPair.joined) none
          = .ok (ps.map RowPair.joined) := rfl
      simp only [hfilter, hall, hfinds.find, Except.bind]
      rcases Join.project_cases (Layout.ofTables l r) q.projection with
        ⟨e, hproject⟩ | ⟨labels, narrowed, hproject⟩
      · simp only [hproject]
        exact ⟨by simp, fun _ _ ha => by cases ha⟩
      · simp only [hproject]
        refine ⟨⟨fun _ => ⟨⟨_, rfl⟩, rows, rfl⟩, fun _ => ⟨_, rfl⟩⟩, ?_⟩
        rintro a _ ⟨⟩ ⟨⟩
        refine ⟨found, hfinds, ⟨ps, hplaces, hproject _⟩, ?_⟩
        simp only [Join.keepFrom_map]

/-- orders of less than the text `30` says -/
def cheap : Condition := ⟨⟨some "orders", "total"⟩, .less, .text "30"⟩

/-- of the two orders that have a buyer, the one that the search of the orders finds is kept -/
theorem select_where_shop :
    ∃ l r, (shop []).table? "users" = some l ∧ (shop []).table? "orders" = some r ∧
      r.positions cheap = .ok [1, 2] ∧
      Join.places l r ⟨"orders", ⟨some "orders", "buyer"⟩, ⟨none, "id"⟩⟩ = [(0, 2), (1, 0)] ∧
      (shop []).select { receipts with condition := none }
        = .ok ⟨["mail", "orders.total"], [[.text "c@x", .int 10], [.null, .int 30]]⟩ ∧
      (shop []).select { receipts with condition := some cheap }
        = .ok ⟨["mail", "orders.total"], [[.text "c@x", .int 10]]⟩ := by
  have hrun : ∃ l ∈ (shop []).table? "users", ∃ r ∈ (shop []).table? "orders",
      r.positions cheap = .ok [1, 2] ∧
      r.find (some cheap) = .ok [⟨["buyer", "total"], [.null, .int 20]⟩,
        ⟨["buyer", "total"], [.text "1", .int 10]⟩] ∧
      Join.places l r ⟨"orders", ⟨some "orders", "buyer"⟩, ⟨none, "id"⟩⟩ = [(0, 2), (1, 0)] ∧
      (shop []).select { receipts with condition := none }
        = .ok ⟨["mail", "orders.total"], [[.text "c@x", .int 10], [.null, .int 30]]⟩ := by
    decide +kernel
  obtain ⟨l, hl, r, hr, hpositions, hfind, hplaces, hall⟩ := hrun
  have hdot : (shop []).DotFree := by decide +kernel
  have hright : cheap.column.table = some (Side.right.pick receipts.table "orders") := rfl
  obtain ⟨-, hanswer⟩ := select_where (reachable_shop []) hdot (q := receipts)
    (k := cheap) rfl hl hr hright
  obtain ⟨found, hfinds, -, hselect⟩ := hanswer _ _ hall hfind
  obtain rfl : found = [1, 2] := Except.ok.inj (hfinds.positions.symm.trans hpositions)
  rw [hplaces] at hselect
  exact ⟨l, r, hl, hr, hpositions, hplaces, hall, hselect⟩

end Database

end TableStore
