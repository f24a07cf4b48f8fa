import TableStore.Proofs.Query.Join

/-!
# Fields named with their table

A joined row knows its fields by labels alone, so what `table.column` means is decided by where that
label comes first.

* `Layout.nodup_labels`       names without dots make labels that are all different;
* `Layout.exists_misreading`  a label with one dot more can be read with another table;
* `Join.resolves_iff`         a query that is answered as the relations are joined finds exactly the
                              fields that they have;
* `Layout.dotFree_of_labels`  a table whose labels are not read as others has names without dots;
* `Join.field_of_label`       so every label is read as a field of the table that is named in it;
* `Database.toldApart_iff`    the fields of two tables are told apart in every query exactly if their
                              names hold no dot.
-/

namespace TableStore

open Sql

namespace Layout

variable {l r : Table}

/-! ## different labels -/

theorem labels_eq (l r : Table) : (ofTables l r).labels
    = l.schema.names.map (labelOf l.name) ++ r.schema.names.map (labelOf r.name) := by
  unfold ofTables Schema.names
  rw [List.map_map, List.map_map]
  rfl

theorem mem_labels_iff {label : String} : label ∈ (ofTables l r).labels ↔
    (∃ d ∈ l.schema.columns, labelOf l.name d.name = label) ∨
      ∃ d ∈ r.schema.columns, labelOf r.name d.name = label := by
  unfold ofTables
  rw [List.mem_append, List.mem_map, List.mem_map]

theorem nodup_labels (hr : r.relation.DotFree) (hvl : l.schema.Valid) (hvr : r.schema.Valid)
    (hne : l.name ≠ r.name) : (ofTables l r).labels.Nodup := by
  have hinj (t : String) : Function.Injective (labelOf t) := fun c d h =>
    (String.append_right_inj _).1 h
  rw [labels_eq]
  refine (hvl.names.map (hinj l.name)).append (hvr.names.map (hinj r.name)) fun x hx hx' => ?_
  obtain ⟨c, hc, rfl⟩ := List.mem_map.1 hx
  obtain ⟨d, hd, hlabel⟩ := List.mem_map.1 hx'
  obtain ⟨e, he, rfl⟩ := List.mem_map.1 hd
  exact hne (label_inj hr.name (dotFree_columns hr e he) hlabel).1.symm

/-! ## labels that can be read in two ways -/

theorem exists_misreading {t c : String} (h : ¬ (DotFree t ∧ DotFree c)) :
    ∃ u d, u ≠ t ∧ labelOf u d = labelOf t c := by
  by_cases ht : DotFree t
  · have hc : '.' ∈ c.toList := by
      by_contra hc
      exact h ⟨ht, hc⟩
    obtain ⟨xs, ys, hxs⟩ := List.append_of_mem hc
    refine ⟨labelOf t (String.ofList xs), String.ofList ys, fun he => ?_, ?_⟩
    · have hlen := congrArg (fun s => s.toList.length) he
      simp [labelOf] at hlen
    · apply String.toList_injective
      simp [labelOf, hxs]
  · obtain ⟨xs, ys, hxs⟩ := List.append_of_mem (not_not.1 ht)
    refine ⟨String.ofList xs, labelOf (String.ofList ys) c, ?_, ?_⟩
    · rintro rfl
      have hlen := congrArg List.length hxs
      simp at hlen
    · apply String.toList_injective
      simp [labelOf, hxs]

theorem resolve?_isSome_iff {u c : String} : ((ofTables l r).resolve? ⟨some u, c⟩).isSome = true ↔
    labelOf u c ∈ (ofTables l r).labels := by
  show ((ofTables l r).labels.findIdx? (· = labelOf u c)).isSome = true ↔ _
  rw [List.findIdx?_isSome, List.any_eq_true]
  simp

/-- a table whose labels are read in one way only, or else as fields of another table that has other
labels, has names without dots -/
theorem dotFree_of_labels {t s : Table} (hnonempty : t.schema.columns ≠ [])
    (hdisjoint : ∀ d ∈ t.schema.columns, ∀ e ∈ s.schema.columns,
      labelOf t.name d.name ≠ labelOf s.name e.name)
    (hread : ∀ d ∈ t.schema.columns, ∀ u c, labelOf u c = labelOf t.name d.name →
      u = t.name ∨ u = s.name ∧ ∃ e ∈ s.schema.columns, e.name = c) : t.relation.DotFree := by
  have hnames (d : ColumnDef) (hd : d ∈ t.schema.columns) :
      TableStore.DotFree t.name ∧ TableStore.DotFree d.name := by
    by_contra hdot
    obtain ⟨u, c, hu, hlabel⟩ := exists_misreading hdot
    rcases hread d hd u c hlabel with rfl | ⟨rfl, e, he, rfl⟩
    · exact hu rfl
    · exact hdisjoint d hd e he hlabel.symm
  constructor
  · obtain ⟨d, hd⟩ := List.exists_mem_of_ne_nil _ hnonempty
    exact (hnames d hd).1
  · intro c hc
    obtain ⟨d, hd, rfl⟩ := List.mem_map.1 hc
    exact (hnames d hd).2

end Layout

/-! ## columns that relations have -/

theorem Table.type?_isSome_iff {t : Table} {c : String} : (t.relation.type? c).isSome = true ↔
    ∃ d ∈ t.schema.columns, d.name = c := by
  rw [t.type?_relation, Option.isSome_map]
  unfold Schema.column?
  rw [List.find?_isSome]
  simp

namespace Relation

theorem field?_isSome {l r : Relation} {u c : String}
    (h : (field? l r ⟨some u, c⟩).isSome = true) :
    (u = l.name ∧ (l.type? c).isSome = true) ∨ (u = r.name ∧ (r.type? c).isSome = true) := by
  unfold field? at h
  dsimp only at h
  split at h
  case isTrue hl =>
    rw [Option.isSome_map] at h
    exact Or.inl ⟨hl, h⟩
  case isFalse =>
    split at h
    case isTrue hr =>
      rw [Option.isSome_map] at h
      exact Or.inr ⟨hr, h⟩
    case isFalse => cases h

variable {l r : Table}

theorem operand?_of_mem {t : Table} {d : ColumnDef} (hd : d ∈ t.schema.columns) :
    (t.relation.operand? ⟨some t.name, d.name⟩).isSome = true := by
  have hcolumn : (⟨some t.name, d.name⟩ : ColumnRef).columnIn? t.relation.name = some d.name :=
    if_pos rfl
  unfold operand?
  rw [hcolumn, Option.bind_some, Option.isSome_map]
  exact Table.type?_isSome_iff.2 ⟨d, hd, rfl⟩

/-- two columns, each written with its table, can be compared -/
theorem related?_of_mem {d e : ColumnDef} (hd : d ∈ l.schema.columns) (he : e ∈ r.schema.columns) :
    (related? l.relation r.relation
      ⟨r.name, ⟨some l.name, d.name⟩, ⟨some r.name, e.name⟩⟩).isSome = true := by
  obtain ⟨a, ha⟩ := Option.isSome_iff_exists.1 (operand?_of_mem hd)
  obtain ⟨b, hb⟩ := Option.isSome_iff_exists.1 (operand?_of_mem he)
  unfold related?
  simp only [ha, hb, Option.isSome_some]

end Relation

/-! ## queries that ask for one field -/

namespace Join

variable {l r : Table}

/-- an answer that is the join of the relations finds the fields that the relations have -/
theorem resolves_iff {q : Select} {j : JoinClause} {ref : ColumnRef}
    (hprojection : q.projection = .columns [ref]) (hcondition : q.condition = none)
    (hne : l.name ≠ r.name) (hrelated : (Relation.related? l.relation r.relation j).isSome = true)
    (h : ofTables l r q j = l.relation.join r.relation q j) :
    ((Layout.ofTables l r).resolve? ref).isSome = true ↔
      (Relation.field? l.relation r.relation ref).isSome = true := by
  rcases columns_cases l r j with ⟨-, hnone⟩ | ⟨i, k, dl, dr, hcolumns, -, hdr, hsome⟩
  · rw [hnone] at hrelated
    cases hrelated
  · unfold ofTables Relation.join at h
    rw [if_neg hne] at h
    simp only [hcolumns, hdr, hsome, hprojection, hcondition, filter, Relation.keep, project,
      Relation.narrow, Layout.resolveAll, List.mapM_cons, List.mapM_nil, Layout.resolve,
      Relation.field] at h
    cases hi : (Layout.ofTables l r).resolve? ref <;>
      cases hf : Relation.field? l.relation r.relation ref
    case none.some | some.none =>
      rw [hi, hf] at h
      cases h
    all_goals simp

/-- where queries are answered as the relations are joined, a label is read as a field that one of
them has -/
theorem field_of_label (hl : l.schema.columns ≠ []) (hr : r.schema.columns ≠ [])
    (hne : l.name ≠ r.name)
    (hanswers : ∀ (q : Select) (j : JoinClause), q.table = l.name → q.join = some j →
      j.table = r.name → (∀ ref ∈ q.references, ref.table ≠ none) →
        ofTables l r q j = l.relation.join r.relation q j)
    {u c : String} (hmem : Layout.labelOf u c ∈ (Layout.ofTables l r).labels) :
    (u = l.name ∧ ∃ d ∈ l.schema.columns, d.name = c) ∨
      (u = r.name ∧ ∃ d ∈ r.schema.columns, d.name = c) := by
  -- a query for nothing but this field, of any two columns
  obtain ⟨d, hd⟩ := List.exists_mem_of_ne_nil _ hl
  obtain ⟨e, he⟩ := List.exists_mem_of_ne_nil _ hr
  let j : JoinClause := ⟨r.name, ⟨some l.name, d.name⟩, ⟨some r.name, e.name⟩⟩
  let q : Select := ⟨.columns [⟨some u, c⟩], l.name, some j, none⟩
  have hanswer := hanswers q j rfl rfl rfl fun ref href => by
    rw [List.mem_singleton.1 href]
    exact Option.some_ne_none u
  have hfield := (resolves_iff (q := q) rfl rfl hne (Relation.related?_of_mem hd he) hanswer).1
    (Layout.resolve?_isSome_iff.2 hmem)
  rw [← Table.type?_isSome_iff, ← Table.type?_isSome_iff]
  exact Relation.field?_isSome hfield

end Join

namespace Database

variable {db : Database} {left right : String} {l r : Table}

/-- the labels of two tables are all different, and every query that joins them and writes its
references with their tables reads the columns that are meant, exactly if no name of the two tables
and their columns holds a dot -/
theorem toldApart_iff (h : db.Reachable) (hl : db.table? left = some l)
    (hr : db.table? right = some r) (hne : left ≠ right) :
    ((Layout.ofTables l r).labels.Nodup ∧
        ∀ (q : Select) (j : JoinClause), q.table = left → q.join = some j → j.table = right →
          (∀ ref ∈ q.references, ref.table ≠ none) →
          db.select q = l.relation.join r.relation q j) ↔
      l.relation.DotFree ∧ r.relation.DotFree := by
  obtain ⟨cl, hstores, rfl⟩ := h.sound.stores hl
  obtain ⟨cr, hstores', rfl⟩ := h.sound.stores hr
  rw [← hstores.name] at hl hne ⊢
  rw [← hstores'.name] at hr hne ⊢
  have hvl : l.schema.Valid := hstores.schema ▸ hstores.valid
  have hvr : r.schema.Valid := hstores'.schema ▸ hstores'.valid
  constructor
  · rintro ⟨hnodup, hanswers⟩
    have hread (u c : String) := Join.field_of_label (u := u) (c := c) hvl.nonempty hvr.nonempty hne
      fun q j hq hj ht hrefs => by
        rw [← select_eq_ofTables hj (hq ▸ hl) (ht ▸ hr)]
        exact hanswers q j hq hj ht hrefs
    have hdisjoint (d : ColumnDef) (hd : d ∈ l.schema.columns) (e : ColumnDef)
        (he : e ∈ r.schema.columns) :
        Layout.labelOf l.name d.name ≠ Layout.labelOf r.name e.name :=
      (List.nodup_append.1 hnodup).2.2 _ (List.mem_map.2 ⟨d, hd, rfl⟩) _
        (List.mem_map.2 ⟨e, he, rfl⟩)
    constructor
    · refine Layout.dotFree_of_labels hvl.nonempty hdisjoint fun d hd u c hlabel => ?_
      rcases hread u c (hlabel ▸ Layout.mem_labels_iff.2 (Or.inl ⟨d, hd, rfl⟩)) with hu | hu
      · exact Or.inl hu.1
      · exact Or.inr hu
    · refine Layout.dotFree_of_labels hvr.nonempty (fun d hd e he => (hdisjoint e he d hd).symm)
        fun d hd u c hlabel => ?_
      rcases hread u c (hlabel ▸ Layout.mem_labels_iff.2 (Or.inr ⟨d, hd, rfl⟩)) with hu | hu
      · exact Or.inr hu
      · exact Or.inl hu.1
  · rintro ⟨hdl, hdr⟩
    refine ⟨Layout.nodup_labels hdr hvl hvr hne, fun q j hq hj ht hrefs => ?_⟩
    rw [← hq] at hl hne
    rw [← ht] at hr hne
    exact h.sound.select_eq_of_plain hj hl hr hne hdl hdr fun ref href hnone =>
      absurd hnone (hrefs ref href)

/-- the totals of the orders and who is to pay them, all with their tables -/
def invoices : Select where
  projection := .columns [⟨some "orders", "total"⟩, ⟨some "users", "mail"⟩]
  table := "users"
  join := some ⟨"orders", ⟨some "users", "id"⟩, ⟨some "orders", "buyer"⟩⟩
  condition := some ⟨⟨some "orders", "total"⟩, .less, .text "30"⟩

theorem toldApart_shop :
    ∃ l r, (shop []).table? "users" = some l ∧ (shop []).table? "orders" = some r ∧
      (Layout.ofTables l r).labels.Nodup ∧
      (shop []).select invoices
        = .ok ⟨["orders.total", "users.mail"], [[.int 10, .text "c@x"]]⟩ := by
  have hrun : ∃ l ∈ (shop []).table? "users", ∃ r ∈ (shop []).table? "orders",
      (l.relation.DotFree ∧ r.relation.DotFree) ∧
        l.relation.join r.relation invoices
            ⟨"orders", ⟨some "users", "id"⟩, ⟨some "orders", "buyer"⟩⟩
          = .ok ⟨["orders.total", "users.mail"], [[.int 10, .text "c@x"]]⟩ := by
    decide +kernel
  obtain ⟨l, hl, r, hr, hdot, hjoin⟩ := hrun
  obtain ⟨hnodup, hanswers⟩ := (toldApart_iff (reachable_shop []) hl hr (by decide)).2 hdot
  refine ⟨l, r, hl, hr, hnodup, ?_⟩
  rw [hanswers invoices _ rfl rfl rfl (by decide +kernel), hjoin]

/-- two tables whose names and columns hold dots, with one row each -/
def dottedOperations : List Operation := [
  .create "a" [⟨"k", .int, false, false⟩, ⟨"b.c", .text, false, false⟩],
  .create "a.b" [⟨"k", .int, false, false⟩, ⟨"c", .text, false, false⟩],
  .call "a" (.insert [("k", .int 1), ("b.c", .text "left")]),
  .call "a.b" (.insert [("k", .int 1), ("c", .text "right")])]

def dotted : Database := (empty "main").after dottedOperations

/-- column `c` of the table `a.b` -/
def secondColumn : Select where
  projection := .columns [⟨some "a.b", "c"⟩]
  table := "a"
  join := some ⟨"a.b", ⟨some "a", "k"⟩, ⟨some "a.b", "k"⟩⟩
  condition := none

/-- column `b.c` of `a` has the label of column `c` of `a.b`, and is read in its place -/
theorem not_toldApart_dotted :
    dotted.Reachable ∧
      ∃ l r, dotted.table? "a" = some l ∧ dotted.table? "a.b" = some r ∧
        ¬ (Layout.ofTables l r).labels.Nodup ∧
        dotted.select secondColumn = .ok ⟨["a.b.c"], [[.text "left"]]⟩ ∧
        l.relation.join r.relation secondColumn ⟨"a.b", ⟨some "a", "k"⟩, ⟨some "a.b", "k"⟩⟩
          = .ok ⟨["a.b.c"], [[.text "right"]]⟩ := by
  refine ⟨(Reachable.empty "main").after dottedOperations, ?_⟩
  have hrun : ∃ l ∈ dotted.table? "a", ∃ r ∈ dotted.table? "a.b",
      ¬ (Layout.ofTables l r).labels.Nodup ∧
        dotted.select secondColumn = .ok ⟨["a.b.c"], [[.text "left"]]⟩ ∧
        l.relation.join r.relation secondColumn ⟨"a.b", ⟨some "a", "k"⟩, ⟨some "a.b", "k"⟩⟩
          = .ok ⟨["a.b.c"], [[.text "right"]]⟩ := by
    decide +kernel
  obtain ⟨l, hl, r, hr, hrest⟩ := hrun
  exact ⟨l, r, hl, hr, hrest⟩

end Database

end TableStore
