import TableStore.Proofs.Keyed
import TableStore.Proofs.Outcome
import TableStore.Proofs.Query.Relation
import TableStore.Proofs.Schema

/-!
# Labels of joined rows

A joined row knows its fields by labels `table.column`. As long as no name holds a dot, a label is
taken apart in one way only, and so it stands for one field.

* `label_inj`               the only two names in a label, if they hold no dot;
* `Layout.position?_label`  where a label stands among the fields;
* `Layout.Means`            the place of a field of two relations in a joined row;
* `Layout.resolve?_rel`     a reference finds the place of the field that it means.
-/

namespace TableStore

open Sql

/-! ## names without dots -/

/-- no character of the name is a dot -/
def DotFree (name : String) : Prop := '.' ∉ name.toList

instance (name : String) : Decidable (DotFree name) := by unfold DotFree; infer_instance

theorem append_dot_inj {t u c d : List Char} (ht : '.' ∉ t) (hc : '.' ∉ c)
    (h : t ++ '.' :: c = u ++ '.' :: d) : t = u ∧ c = d := by
  induction t generalizing u with
  | nil =>
    cases u with
    | nil => exact ⟨rfl, List.tail_eq_of_cons_eq h⟩
    | cons x u =>
      -- the dot that the right side has further on would stand in the column
      have htail : c = u ++ '.' :: d := (List.cons.inj h).2
      exact absurd (htail ▸ List.mem_append_right u List.mem_cons_self) hc
  | cons x t ih =>
    cases u with
    | nil => exact absurd (List.cons.inj h).1.symm fun he => ht (he ▸ List.mem_cons_self)
    | cons y u =>
      obtain ⟨rfl, htail⟩ := List.cons.inj h
      obtain ⟨rfl, hcd⟩ := ih (fun hm => ht (List.mem_cons_of_mem _ hm)) htail
      exact ⟨rfl, hcd⟩

/-- a label of two names without dots is the label of no other names -/
theorem label_inj {t u c d : String} (ht : DotFree t) (hc : DotFree c)
    (h : Layout.labelOf t c = Layout.labelOf u d) : t = u ∧ c = d := by
  have hlist : t.toList ++ '.' :: c.toList = u.toList ++ '.' :: d.toList := by
    have h' := congrArg String.toList h
    simpa [Layout.labelOf] using h'
  obtain ⟨htu, hcd⟩ := append_dot_inj ht hc hlist
  exact ⟨String.toList_injective htu, String.toList_injective hcd⟩

theorem label_ne {t c d : String} (hd : DotFree d) : Layout.labelOf t c ≠ d := by
  rintro rfl
  apply hd
  simp [Layout.labelOf]

/-- a name, or two names, without dots -/
structure ColumnRef.DotFree (r : ColumnRef) : Prop where
  table : ∀ t ∈ r.table, TableStore.DotFree t
  column : TableStore.DotFree r.column

instance (r : ColumnRef) : Decidable r.DotFree :=
  decidable_of_iff ((∀ t ∈ r.table, TableStore.DotFree t) ∧ TableStore.DotFree r.column)
    ⟨fun h => ⟨h.1, h.2⟩, fun h => ⟨h.table, h.column⟩⟩

/-- a bare name holds no dot; with the name of a table any names may stand -/
def ColumnRef.Plain (r : ColumnRef) : Prop := r.table = none → TableStore.DotFree r.column

theorem ColumnRef.DotFree.plain {r : ColumnRef} (h : r.DotFree) : r.Plain := fun _ => h.column

/-- a reference with a table means a column of that table only -/
theorem ColumnRef.columnIn?_eq_none {r : ColumnRef} (hr : r.table ≠ none) {t u : String}
    (hne : t ≠ u) (h : r.columnIn? t ≠ none) : r.columnIn? u = none := by
  obtain ⟨table, column⟩ := r
  obtain ⟨s, rfl⟩ := Option.ne_none_iff_exists'.1 hr
  have hs : s = t := by
    by_contra hst
    exact h (if_neg hst)
  exact if_neg fun hsu => hne (hs.symm.trans hsu)

/-- neither the name nor that of a column holds a dot -/
structure Relation.DotFree (r : Relation) : Prop where
  name : TableStore.DotFree r.name
  columns : ∀ c ∈ r.columns, TableStore.DotFree c.1

instance (r : Relation) : Decidable r.DotFree :=
  decidable_of_iff (TableStore.DotFree r.name ∧ ∀ c ∈ r.columns, TableStore.DotFree c.1)
    ⟨fun h => ⟨h.1, h.2⟩, fun h => ⟨h.name, h.columns⟩⟩

/-! ## columns by name -/

theorem Table.type?_relation (t : Table) (c : String) :
    t.relation.type? c = (t.schema.column? c).map (·.type) :=
  Keyed.lookup_map ColumnDef.name ColumnDef.type t.schema.columns c

/-- a name stands for a column, with its place and its type, or for none -/
theorem Table.position?_cases (t : Table) (c : String) :
    (t.schema.position? c = none ∧ t.relation.type? c = none) ∨
      ∃ i d, t.schema.position? c = some i ∧ t.schema.columns[i]? = some d ∧ d.name = c ∧
        t.relation.type? c = some d.type := by
  cases h : t.schema.position? c with
  | none =>
    have hcolumn : t.schema.column? c = none := by
      apply List.find?_eq_none.2
      intro d hd hname
      exact Schema.position?_eq_none_iff.1 h (List.mem_map.2 ⟨d, hd, of_decide_eq_true hname⟩)
    refine Or.inl ⟨rfl, ?_⟩
    rw [t.type?_relation, hcolumn]
    rfl
  | some i =>
    obtain ⟨d, hd, hname, hcolumn⟩ := Schema.of_position? h
    refine Or.inr ⟨i, d, rfl, hd, hname, ?_⟩
    rw [t.type?_relation, hcolumn]
    rfl

namespace Layout

variable {l r : Table}

/-! ## places of labels -/

theorem findIdx?_labels {ds : List ColumnDef} {t : String} (ht : DotFree t)
    (hds : ∀ d ∈ ds, DotFree d.name) (u c : String) :
    (ds.map fun d => labelOf t d.name).findIdx? (· = labelOf u c)
      = if t = u then ds.findIdx? (·.name = c) else none := by
  by_cases h : t = u
  · subst h
    rw [if_pos rfl, List.findIdx?_map]
    apply congrArg fun p => List.findIdx? p ds
    funext d
    apply decide_eq_decide.2
    exact String.append_right_inj _
  · rw [if_neg h, List.findIdx?_eq_none_iff]
    intro x hx
    obtain ⟨d, hd, rfl⟩ := List.mem_map.1 hx
    exact decide_eq_false fun he => h (label_inj ht (hds d hd) he).1

theorem dotFree_columns {t : Table} (h : t.relation.DotFree) :
    ∀ d ∈ t.schema.columns, DotFree d.name := fun d hd =>
  h.columns (d.name, d.type) (List.mem_map.2 ⟨d, hd, rfl⟩)

/-- a label of one of the tables stands where the column does, those of the left table first -/
theorem position?_label (hl : l.relation.DotFree) (hr : r.relation.DotFree)
    (hne : l.name ≠ r.name) (u c : String) :
    (ofTables l r).position? (labelOf u c)
      = if u = l.name then l.schema.position? c
        else if u = r.name then (r.schema.position? c).map (· + l.schema.columns.length)
        else none := by
  have hl' : DotFree l.name := hl.name
  have hr' : DotFree r.name := hr.name
  unfold position? ofTables
  rw [List.findIdx?_append, findIdx?_labels hl' (dotFree_columns hl),
    findIdx?_labels hr' (dotFree_columns hr), List.length_map]
  by_cases h : u = l.name
  · rw [if_pos h, if_pos h.symm, if_neg fun he => hne (h.symm.trans he.symm)]
    exact Option.or_none
  · rw [if_neg h, if_neg (Ne.symm h), Option.none_or]
    by_cases h' : u = r.name
    · rw [if_pos h', if_pos h'.symm]
      rfl
    · rw [if_neg h', if_neg (Ne.symm h')]
      rfl

/-- a name without a dot is no label -/
theorem position?_of_dotFree {c : String} (hc : DotFree c) : (ofTables l r).position? c = none := by
  apply List.findIdx?_eq_none_iff.2
  intro x hx
  rcases List.mem_append.1 hx with hx | hx
  · obtain ⟨d, -, rfl⟩ := List.mem_map.1 hx
    exact decide_eq_false (label_ne hc)
  · obtain ⟨d, -, rfl⟩ := List.mem_map.1 hx
    exact decide_eq_false (label_ne hc)

/-! ## places of fields -/

/-- the place of a field in a joined row -/
inductive Means (l r : Table) : Nat → Field → Prop where
  | left {i : Nat} {d : ColumnDef} (h : l.schema.columns[i]? = some d) :
    Means l r i ⟨.left, d.name, d.type⟩
  | right {i : Nat} {d : ColumnDef} (h : r.schema.columns[i]? = some d) :
    Means l r (i + l.schema.columns.length) ⟨.right, d.name, d.type⟩

theorem Means.type {i : Nat} {f : Field} (h : Means l r i f) :
    (ofTables l r).types[i]? = some f.type := by
  unfold ofTables
  rw [List.getElem?_map]
  cases h with
  | left h =>
    rw [List.getElem?_append_left (List.getElem?_eq_some_iff.1 h).1, h]
    rfl
  | right h =>
    rw [List.getElem?_append_right (Nat.le_add_left _ _), Nat.add_sub_cancel, h]
    rfl

theorem Means.label {i : Nat} {f : Field} (h : Means l r i f) :
    (ofTables l r).labels[i]? = some (Relation.fieldLabel l.relation r.relation f) := by
  unfold ofTables
  cases h with
  | left h =>
    have hlt := (List.getElem?_eq_some_iff.1 h).1
    rw [List.getElem?_append_left (by rwa [List.length_map]), List.getElem?_map, h]
    rfl
  | right h =>
    rw [List.getElem?_append_right (by rw [List.length_map]; exact Nat.le_add_left _ _),
      List.length_map, Nat.add_sub_cancel, List.getElem?_map, h]
    rfl

/-- a column of the left table -/
theorem left_rel (l r : Table) (c : String) :
    Option.Rel (Means l r) (l.schema.position? c)
      ((l.relation.type? c).map (Field.mk .left c)) := by
  rcases l.position?_cases c with ⟨hpos, htype⟩ | ⟨i, d, hpos, hd, rfl, htype⟩
  · rw [hpos, htype]
    exact .none
  · rw [hpos, htype]
    exact .some (.left hd)

/-- a column of the right table -/
theorem right_rel (l r : Table) (c : String) :
    Option.Rel (Means l r) ((r.schema.position? c).map (· + l.schema.columns.length))
      ((r.relation.type? c).map (Field.mk .right c)) := by
  rcases r.position?_cases c with ⟨hpos, htype⟩ | ⟨i, d, hpos, hd, rfl, htype⟩
  · rw [hpos, htype]
    exact .none
  · rw [hpos, htype]
    exact .some (.right hd)

theorem or_rel {α β : Type} {R : α → β → Prop} {a a' : Option α} {b b' : Option β}
    (h : Option.Rel R a b) (h' : Option.Rel R a' b') : Option.Rel R (a.or a') (b.or b') := by
  cases h with
  | none => exact h'
  | some h => exact .some h

/-- a reference finds the place of the field that it means, or nothing where it means none -/
theorem resolve?_rel (hl : l.relation.DotFree) (hr : r.relation.DotFree) (hne : l.name ≠ r.name)
    {ref : ColumnRef} (href : ref.Plain) :
    Option.Rel (Means l r) ((ofTables l r).resolve? ref)
      (Relation.field? l.relation r.relation ref) := by
  obtain ⟨table, column⟩ := ref
  cases table with
  | none =>
    -- the bare name is no label, so the labels that it makes with the two tables decide
    have hleft : (ofTables l r).position? (labelOf l.name column) = l.schema.position? column := by
      rw [position?_label hl hr hne, if_pos rfl]
    have hright : (ofTables l r).position? (labelOf r.name column)
        = (r.schema.position? column).map (· + l.schema.columns.length) := by
      rw [position?_label hl hr hne, if_neg (Ne.symm hne), if_pos rfl]
    show Option.Rel _ (((ofTables l r).position? column).or
      (((ofTables l r).position? (labelOf l.name column)).or
        ((ofTables l r).position? (labelOf r.name column)))) _
    rw [position?_of_dotFree (href rfl), Option.none_or, hleft, hright]
    exact or_rel (left_rel l r column) (right_rel l r column)
  | some u =>
    show Option.Rel _ ((ofTables l r).position? (labelOf u column))
      (if u = l.name then _ else if u = r.name then _ else none)
    rw [position?_label hl hr hne]
    split
    · exact left_rel l r column
    · split
      · exact right_rel l r column
      · exact .none

end Layout

end TableStore
