import Mathlib.Data.List.Perm.Basic
import TableStore.Proofs.Query.Join

/-!
# Joins with the tables exchanged

* `product_swap_perm`      the pairs of two lists are those of the lists exchanged, in another order;
* `Relation.Typed`         values of the types of their columns, as every stored row has them;
* `Relation.meets_swap`    between columns of one type it does not matter which key is brought to the
                           type of the other;
* `Relation.join_swap`     so the joins of two relations have the same rows, in some order, or fail
                           alike;
* `Database.select_swap`   and so have the answers of a database that can be reached.
-/

namespace TableStore

open Sql

theorem product_swap_perm {α β : Type} (xs : List α) (ys : List β) :
    (ys.product xs).Perm ((xs.product ys).map Prod.swap) := by
  induction xs with
  | nil =>
    have hnil : ys.product ([] : List α) = [] := List.flatMap_eq_nil_iff.2 fun _ _ => rfl
    rw [hnil]
    exact .nil
  | cons x xs ih =>
    have hcons : (x :: xs).product ys = ys.map (Prod.mk x) ++ xs.product ys := rfl
    rw [hcons, List.map_append, List.map_map]
    exact (List.map_append_flatMap_perm ys (fun y => (y, x)) fun y => xs.map (Prod.mk y)).symm.trans
      (ih.append_left _)

/-- the same labels, and the same rows in some order -/
structure QueryResult.SameRows (a b : QueryResult) : Prop where
  labels : a.labels = b.labels
  rows : a.rows.Perm b.rows

/-! ## fields of exchanged relations -/

def Side.opposite : Side → Side
  | .left => .right
  | .right => .left

/-- the same field, where the relations are exchanged -/
def Field.mirror (f : Field) : Field := { f with side := f.side.opposite }

theorem Field.value?_mirror (f : Field) (p : RowPair) : f.mirror.value? p.swap = f.value? p := by
  obtain ⟨side, column, type⟩ := f
  cases side <;> rfl

namespace Relation

variable {l r : Relation}

theorem fieldLabel_mirror (f : Field) : fieldLabel r l f.mirror = fieldLabel l r f := by
  obtain ⟨side, column, type⟩ := f
  cases side <;> rfl

/-- a reference with its table means the same field whichever relation comes first -/
theorem field_swap (hne : l.name ≠ r.name) {ref : ColumnRef} (href : ref.table ≠ none) :
    field r l ref = (field l r ref).map Field.mirror := by
  obtain ⟨table, column⟩ := ref
  obtain ⟨u, rfl⟩ := Option.ne_none_iff_exists'.1 href
  unfold field field?
  dsimp only
  by_cases hl : u = l.name
  · rw [if_pos hl, if_pos hl, if_neg fun hr => hne (hl.symm.trans hr)]
    cases l.type? column <;> rfl
  · rw [if_neg hl, if_neg hl]
    by_cases hr : u = r.name
    · rw [if_pos hr, if_pos hr]
      cases r.type? column <;> rfl
    · rw [if_neg hr, if_neg hr]
      rfl

theorem mapM_field_swap (hne : l.name ≠ r.name) {refs : List ColumnRef}
    (hrefs : ∀ ref ∈ refs, ref.table ≠ none) :
    refs.mapM (field r l) = (refs.mapM (field l r)).map (List.map Field.mirror) := by
  induction refs with
  | nil => rfl
  | cons ref refs ih =>
    rw [List.forall_mem_cons] at hrefs
    rw [List.mapM_cons, List.mapM_cons, field_swap hne hrefs.1, ih hrefs.2]
    cases field l r ref with
    | error e => rfl
    | ok f => cases refs.mapM (field l r) <;> rfl

/-! ## the columns that are compared -/

/-- a reference with its table is an operand of that table only -/
theorem operand?_eq_none (hne : l.name ≠ r.name) {ref : ColumnRef} (href : ref.table ≠ none)
    {a : String × DataType} (h : l.operand? ref = some a) : r.operand? ref = none := by
  obtain ⟨column, hcolumn, -⟩ := Option.bind_eq_some_iff.1 h
  have hnone := ColumnRef.columnIn?_eq_none href hne (hcolumn ▸ Option.some_ne_none column)
  unfold operand?
  rw [hnone]
  rfl

theorem type?_of_operand? {ref : ColumnRef} {a : String × DataType} (h : l.operand? ref = some a) :
    l.type? a.1 = some a.2 := by
  obtain ⟨column, -, h⟩ := Option.bind_eq_some_iff.1 h
  obtain ⟨type, htype, rfl⟩ := Option.map_eq_some_iff.1 h
  exact htype

theorem related?_cases {j : JoinClause} {a b : String × DataType}
    (h : related? l r j = some (a, b)) :
    (l.operand? j.left = some a ∧ r.operand? j.right = some b) ∨
      (l.operand? j.right = some a ∧ r.operand? j.left = some b) := by
  unfold related? at h
  split at h
  case h_1 ha hb =>
    cases h
    exact Or.inl ⟨ha, hb⟩
  case h_2 =>
    split at h
    case h_1 ha hb =>
      cases h
      exact Or.inr ⟨ha, hb⟩
    case h_2 => cases h

theorem types_of_related? {j : JoinClause} {a b : String × DataType}
    (h : related? l r j = some (a, b)) : l.type? a.1 = some a.2 ∧ r.type? b.1 = some b.2 := by
  rcases related?_cases h with ⟨ha, hb⟩ | ⟨ha, hb⟩
  · exact ⟨type?_of_operand? ha, type?_of_operand? hb⟩
  · exact ⟨type?_of_operand? ha, type?_of_operand? hb⟩

/-- an operand with its table, and any other, are compared alike whichever relation comes first -/
theorem related?_swap (hne : l.name ≠ r.name) {x y : ColumnRef} (hx : x.table ≠ none)
    {t u : String} {a b : String × DataType}
    (h : related? l r ⟨t, x, y⟩ = some (a, b)) : related? r l ⟨u, x, y⟩ = some (b, a) := by
  unfold related?
  rcases related?_cases h with ⟨ha, hb⟩ | ⟨ha, hb⟩
  · -- written in the order of the first join, so the other way round for the second
    simp only [operand?_eq_none hne hx ha, ha, hb]
  · simp only [ha, hb]

/-! ## rows that belong together -/

/-- the values of the rows are of the types of their columns -/
def Typed (r : Relation) : Prop :=
  ∀ row ∈ r.rows, ∀ (c : String) (t : DataType) (v : Value), r.type? c = some t →
    row.get? c = some v → t.holds v = true

/-- between columns of one type it does not matter which key is brought to the type of the other -/
theorem meets_swap (hl : l.Typed) (hr : r.Typed) {a b : String} {t : DataType}
    (ha : l.type? a = some t) (hb : r.type? b = some t) {p : RowPair} (hp1 : p.1 ∈ l.rows)
    (hp2 : p.2 ∈ r.rows) : meets (b, t) (a, t) p.swap = meets (a, t) (b, t) p := by
  unfold meets
  rw [Prod.fst_swap, Prod.snd_swap]
  cases hv : p.1.get? a with
  | none => cases p.2.get? b <;> rfl
  | some v =>
    cases hw : p.2.get? b with
    | none => rfl
    | some w =>
      dsimp only
      rw [coerce?_of_holds (hl p.1 hp1 a t v ha hv), coerce?_of_holds (hr p.2 hp2 b t w hb hw)]
      apply decide_eq_decide.2
      constructor
      · rintro ⟨hnull, heq⟩
        cases heq
        exact ⟨hnull, rfl⟩
      · rintro ⟨hnull, heq⟩
        cases heq
        exact ⟨hnull, rfl⟩

theorem filter_meets_swap (hl : l.Typed) (hr : r.Typed) {a b : String} {t : DataType}
    (ha : l.type? a = some t) (hb : r.type? b = some t) :
    ((r.rows.product l.rows).filter (meets (b, t) (a, t))).Perm
      (((l.rows.product r.rows).filter (meets (a, t) (b, t))).map Prod.swap) := by
  have hmeets : (l.rows.product r.rows).filter (meets (b, t) (a, t) ∘ Prod.swap)
      = (l.rows.product r.rows).filter (meets (a, t) (b, t)) := by
    apply List.filter_congr
    intro p hp
    exact meets_swap hl hr ha hb (List.mem_product.1 hp).1 (List.mem_product.1 hp).2
  rw [← hmeets, ← List.filter_map]
  exact (product_swap_perm l.rows r.rows).filter _

/-! ## conditions, projections and whole joins -/

section
variable {ps qs : List RowPair}

theorem keep_swap (hne : l.name ≠ r.name) {condition : Option Condition}
    (hcondition : ∀ k ∈ condition, k.column.table ≠ none) (h : qs.Perm (ps.map Prod.swap)) :
    AnswerRel (fun ps qs => qs.Perm (ps.map Prod.swap)) (keep l r condition ps)
      (keep r l condition qs) := by
  cases condition with
  | none => exact .ok h
  | some k =>
    unfold keep
    dsimp only
    rw [field_swap hne (hcondition k rfl)]
    cases field l r k.column with
    | error e => exact .error e
    | ok f =>
      dsimp only [Except.map]
      rw [fieldLabel_mirror, show f.mirror.type = f.type from rfl]
      cases f.type.coerce? k.value with
      | none => exact .error _
      | some v =>
        refine .ok ((h.filter _).trans (.of_eq ?_))
        rw [List.filter_map]
        apply congrArg (List.map Prod.swap)
        apply List.filter_congr
        intro p _
        rw [Function.comp_apply, Field.value?_mirror]

theorem narrow_swap (hne : l.name ≠ r.name) {refs : List ColumnRef}
    (hrefs : ∀ ref ∈ refs, ref.table ≠ none) (h : qs.Perm (ps.map Prod.swap)) :
    AnswerRel QueryResult.SameRows (narrow l r (.columns refs) ps)
      (narrow r l (.columns refs) qs) := by
  unfold narrow
  dsimp only
  rw [mapM_field_swap hne hrefs]
  cases refs.mapM (field l r) with
  | error e => exact .error e
  | ok fs =>
    refine .ok ⟨rfl, ((h.map _).trans (.of_eq ?_)).symm⟩
    rw [List.map_map]
    apply List.map_congr_left
    intro p _
    rw [Function.comp_apply, List.map_map]
    apply List.map_congr_left
    intro f _
    rw [Function.comp_apply, Field.value?_mirror]

end

/-- the joins of two relations, in one order and in the other -/
theorem join_swap (hne : l.name ≠ r.name) (hl : l.Typed) (hr : r.Typed) {q q' : Select}
    {j j' : JoinClause} {a b : String} {t : DataType} {refs : List ColumnRef}
    (hon : related? l r j = some ((a, t), (b, t))) (hon' : related? r l j' = some ((b, t), (a, t)))
    (hprojection : q.projection = .columns refs) (hprojection' : q'.projection = .columns refs)
    (hcondition : q'.condition = q.condition) (hrefs : ∀ ref ∈ refs, ref.table ≠ none)
    (hqualified : ∀ k ∈ q.condition, k.column.table ≠ none) :
    AnswerRel QueryResult.SameRows (l.join r q j) (r.join l q' j') := by
  obtain ⟨ha, hb⟩ := types_of_related? hon
  have hkeep := keep_swap hne hqualified (filter_meets_swap hl hr ha hb)
  unfold join
  rw [hon, hon', hprojection, hprojection', hcondition]
  dsimp only
  generalize keep l r q.condition _ = kept at hkeep ⊢
  generalize keep r l q.condition _ = kept' at hkeep ⊢
  cases hkeep with
  | error e => exact .error e
  | ok hperm => exact narrow_swap hne hrefs hperm

end Relation

/-! ## queries of a database -/

theorem Table.Stores.typed {t : Table} {c : Contents} (h : t.Stores c) : t.relation.Typed := by
  intro row hrow name type v htype hv
  rcases t.position?_cases name with ⟨-, hnone⟩ | ⟨i, d, -, hd, rfl, hsome⟩
  · rw [hnone] at htype
    cases htype
  · obtain ⟨vs, hvs, rfl⟩ := h.mem_rows_iff.1 hrow
    rw [htype] at hsome
    cases hsome
    rw [h.get?_of_mem hrow hd] at hv
    exact (h.admits.fits vs hvs).typed i d v (h.schema ▸ hd) hv

namespace Database

variable {db : Database} {left right : String} {l r : Table}

/-- a query that joins two tables on columns of one type, and writes its references with their
tables, has the same labels and rows, or fails alike, when the tables are exchanged -/
theorem select_swap (h : db.Reachable) (hdot : db.DotFree) (hl : db.table? left = some l)
    (hr : db.table? right = some r) (hne : left ≠ right) {x y : ColumnRef} {a b : String}
    {t : DataType} (hx : x.table ≠ none)
    (hon : Relation.related? l.relation r.relation ⟨right, x, y⟩ = some ((a, t), (b, t)))
    {refs : List ColumnRef} (hrefs : ∀ ref ∈ refs, ref.table ≠ none)
    {condition : Option Condition} (hcondition : ∀ k ∈ condition, k.column.table ≠ none) :
    AnswerRel QueryResult.SameRows
      (db.select ⟨.columns refs, left, some ⟨right, x, y⟩, condition⟩)
      (db.select ⟨.columns refs, right, some ⟨left, x, y⟩, condition⟩) := by
  have hdl : l.relation.DotFree := hdot _ (Keyed.mem_of_lookup hl)
  have hdr : r.relation.DotFree := hdot _ (Keyed.mem_of_lookup hr)
  obtain ⟨cl, hstores, hname⟩ := h.sound.stores hl
  obtain ⟨cr, hstores', hname'⟩ := h.sound.stores hr
  have hne' : l.relation.name ≠ r.relation.name := by
    show l.name ≠ r.name
    rw [hstores.name, hstores'.name, hname, hname']
    exact hne
  have hplain (table : String) (j : Option JoinClause) :
      ∀ ref ∈ (⟨.columns refs, table, j, condition⟩ : Select).references, ref.Plain := by
    intro ref href hnone
    rcases List.mem_append.1 href with href | href
    · exact absurd hnone (hrefs ref href)
    · obtain ⟨k, hk, rfl⟩ := Option.map_eq_some_iff.1 (Option.mem_toList.1 href)
      exact absurd hnone (hcondition k hk)
  rw [h.sound.select_eq_of_plain rfl hl hr hne hdl hdr (hplain _ _),
    h.sound.select_eq_of_plain rfl hr hl hne.symm hdr hdl (hplain _ _)]
  exact Relation.join_swap hne' hstores.typed hstores'.typed hon
    (Relation.related?_swap hne' hx hon) rfl rfl rfl hrefs hcondition

/-- the users and their orders, two of which were made under the address of a user -/
def addressed : Database := (shop []).after [
  .run (.insert "users" none [.int 5, .text "3"]),
  .run (.insert "orders" none [.text "c@x", .int 5])]

/-- the columns to be shown of a user and an order -/
def billed : List ColumnRef := [⟨some "orders", "total"⟩, ⟨some "users", "id"⟩]

/-- the index of the users' addresses serves the second query only -/
theorem select_swap_addressed :
    addressed.select ⟨.columns billed, "users",
        some ⟨"orders", ⟨some "orders", "buyer"⟩, ⟨some "users", "mail"⟩⟩, none⟩
      = .ok ⟨["orders.total", "users.id"], [[.int 5, .int 1], [.int 30, .int 5]]⟩ ∧
    addressed.select ⟨.columns billed, "orders",
        some ⟨"users", ⟨some "orders", "buyer"⟩, ⟨some "users", "mail"⟩⟩, none⟩
      = .ok ⟨["orders.total", "users.id"], [[.int 30, .int 5], [.int 5, .int 1]]⟩ ∧
    AnswerRel QueryResult.SameRows
      (addressed.select ⟨.columns billed, "users",
        some ⟨"orders", ⟨some "orders", "buyer"⟩, ⟨some "users", "mail"⟩⟩, none⟩)
      (addressed.select ⟨.columns billed, "orders",
        some ⟨"users", ⟨some "orders", "buyer"⟩, ⟨some "users", "mail"⟩⟩, none⟩) := by
  have hrun : ∃ l ∈ addressed.table? "users", ∃ r ∈ addressed.table? "orders",
      Relation.related? l.relation r.relation
          ⟨"orders", ⟨some "orders", "buyer"⟩, ⟨some "users", "mail"⟩⟩
        = some (("mail", .text), ("buyer", .text)) := by
    decide +kernel
  obtain ⟨l, hl, r, hr, hon⟩ := hrun
  have hdot : addressed.DotFree := by decide +kernel
  refine ⟨by decide +kernel, by decide +kernel, ?_⟩
  exact select_swap ((reachable_shop []).after _) hdot hl hr (by decide) (by decide) hon
    (by decide) (by simp)

end Database

end TableStore
