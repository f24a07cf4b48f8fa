import TableStore.Database.Run
import TableStore.Proofs.Database.Reachable
import TableStore.Proofs.Query.Layout
import TableStore.Proofs.Table.Alike
import TableStore.Proofs.Table.Rows
import TableStore.Proofs.Table.Selection

/-!
# Joins answer as relations do

* `Join.partners_eq`     the index of the right column gives the rows that a look at every right row
                         gives;
* `Join.pairs_eq`        so the joined rows are the pairs that belong together, whether or not there
                         is an index;
* `Join.ofTables_eq`     and the answer is the join of the two relations;
* `Database.select_eq_join`   in a database that can be reached, and whose names hold no dot.
-/

namespace TableStore

open Sql

namespace Join

variable {l r : Table} {cl cr : Contents}

/-! ## the pairs of rows -/

/-- the partners of a row are the same with an index and without -/
theorem partners_eq (hr : r.Stores cr) {k : Nat} {d : ColumnDef}
    (hd : r.schema.columns[k]? = some d) (key : Value) :
    partners r k r.rows key = r.rows.filter fun row => row.values[k]? = some key := by
  unfold partners
  rw [hd, Option.bind_some]
  cases hi : r.index? d.name with
  | none => rfl
  | some i =>
    have htracks := (hr.serves (hr.schema ▸ hd) hi).tracks
    have hlen : cr.rows.length = r.rows.length := by rw [hr.rows_eq, List.length_map]
    show (i.find key).filterMap (fun pos => r.rows[pos]?) = _
    -- both sides pick rows by position, so only the positions have to be compared
    rw [htracks.find_eq, positionsOf, length_columnOf, hlen, ← filterMap_getElem?_filter r.rows]
    apply congrArg fun ps => List.filterMap (fun pos => r.rows[pos]?) ps
    apply List.filter_congr
    intro pos hpos
    have hlt : pos < cr.rows.length := hlen ▸ List.mem_range.1 hpos
    have hrow := List.getElem?_eq_getElem hlt
    have hcell : (cr.rows[pos])[k]? = some ((cr.rows[pos])[k]?.getD .null) := by
      have hk := (hr.admits.fits _ (List.getElem_mem hlt)).lt_length (hr.schema ▸ hd)
      rw [List.getElem?_eq_getElem hk, Option.getD_some]
    rw [getElem?_columnOf, hr.rows_eq, List.getElem?_map, hrow, Option.map_some, Option.map_some,
      Option.any_some, hcell, Option.getD_some]

theorem meets_eq (hl : l.Stores cl) (hr : r.Stores cr) {i k : Nat} {dl dr : ColumnDef}
    (hdl : l.schema.columns[i]? = some dl) (hdr : r.schema.columns[k]? = some dr) {p : RowPair}
    (hp1 : p.1 ∈ l.rows) (hp2 : p.2 ∈ r.rows) :
    Relation.meets (dl.name, dl.type) (dr.name, dr.type) p
      = ((p.1.values[i]?).bind (key? dr.type)).any fun key => p.2.values[k]? = some key := by
  obtain ⟨v, hv⟩ := hl.getElem?_of_mem hp1 hdl
  obtain ⟨w, hw⟩ := hr.getElem?_of_mem hp2 hdr
  unfold Relation.meets
  simp only [hl.get?_of_mem hp1 hdl, hr.get?_of_mem hp2 hdr, hv, hw, Option.bind_some]
  unfold key?
  by_cases hnull : v = .null
  · subst hnull
    rfl
  · rw [if_neg (by rwa [Value.isNull_iff])]
    cases dr.type.coerce? v with
    | none => simp
    | some key => simp [hnull, eq_comm]

/-- the joined rows are the pairs that belong together -/
theorem pairs_eq (hl : l.Stores cl) (hr : r.Stores cr) {i k : Nat} {dl dr : ColumnDef}
    (hdl : l.schema.columns[i]? = some dl) (hdr : r.schema.columns[k]? = some dr) :
    pairs l r i k dr.type
      = ((l.rows.product r.rows).filter
          (Relation.meets (dl.name, dl.type) (dr.name, dr.type))).map RowPair.joined := by
  unfold pairs List.product
  rw [List.filter_flatMap, List.map_flatMap]
  apply List.flatMap_congr
  intro a ha
  rw [List.filter_map, List.map_map]
  have hmeets : r.rows.filter (Relation.meets (dl.name, dl.type) (dr.name, dr.type) ∘ Prod.mk a)
      = r.rows.filter fun b =>
          ((a.values[i]?).bind (key? dr.type)).any fun key => b.values[k]? = some key :=
    List.filter_congr fun b hb => meets_eq hl hr hdl hdr (p := (a, b)) ha hb
  rw [hmeets]
  cases (a.values[i]?).bind (key? dr.type) with
  | none =>
    rw [List.filter_eq_nil_iff.2 (by simp)]
    rfl
  | some key =>
    dsimp only
    rw [partners_eq hr hdr key]
    rfl

/-! ## the columns that are compared -/

theorem operand?_cases (t : Table) (ref : ColumnRef) :
    (t.resolve? ref = none ∧ t.relation.operand? ref = none) ∨
      ∃ i d, t.resolve? ref = some i ∧ t.schema.columns[i]? = some d ∧
        t.relation.operand? ref = some (d.name, d.type) := by
  unfold Table.resolve? Relation.operand?
  have hname : t.relation.name = t.name := rfl
  rw [hname]
  cases ref.columnIn? t.name with
  | none => exact Or.inl ⟨rfl, rfl⟩
  | some column =>
    rw [Option.bind_some, Option.bind_some]
    rcases t.position?_cases column with ⟨hpos, htype⟩ | ⟨i, d, hpos, hd, rfl, htype⟩
    · exact Or.inl ⟨hpos, by rw [htype]; rfl⟩
    · exact Or.inr ⟨i, d, hpos, hd, by rw [htype]; rfl⟩

/-- `ON` compares the same columns in the tables and in their relations, or none in both -/
theorem columns_cases (l r : Table) (j : JoinClause) :
    (columns l r j = .error (.column (.unrelated j.left j.right l.name r.name)) ∧
        Relation.related? l.relation r.relation j = none) ∨
      ∃ i k dl dr, columns l r j = .ok (i, k) ∧ l.schema.columns[i]? = some dl ∧
        r.schema.columns[k]? = some dr ∧
        Relation.related? l.relation r.relation j
          = some ((dl.name, dl.type), (dr.name, dr.type)) := by
  unfold columns Relation.related?
  -- only where one operand is missing are they tried the other way round
  rcases operand?_cases l j.left with ⟨h1, h1'⟩ | ⟨i, dl, h1, hdl, h1'⟩ <;>
  rcases operand?_cases r j.right with ⟨h2, h2'⟩ | ⟨k, dr, h2, hdr, h2'⟩
  case inr.inr =>
    simp only [h1, h1', h2, h2']
    exact Or.inr ⟨i, k, dl, dr, rfl, hdl, hdr, rfl⟩
  all_goals
    simp only [h1, h1', h2, h2']
    rcases operand?_cases l j.right with ⟨h3, h3'⟩ | ⟨i', dl', h3, hdl', h3'⟩ <;>
    rcases operand?_cases r j.left with ⟨h4, h4'⟩ | ⟨k', dr', h4, hdr', h4'⟩
    case inr.inr =>
      simp only [h3, h3', h4, h4']
      exact Or.inr ⟨i', k', dl', dr', rfl, hdl', hdr', rfl⟩
    all_goals exact Or.inl (by simp only [h3, h3', h4, h4', and_self])

/-- tables with the same contents are joined alike -/
theorem ofTables_congr {l' r' : Table} (hl : l.Stores cl) (hl' : l'.Stores cl) (hr : r.Stores cr)
    (hr' : r'.Stores cr) (q : Select) (j : JoinClause) : ofTables l r q j = ofTables l' r' q j := by
  have hlayout : Layout.ofTables l r = Layout.ofTables l' r' := by
    unfold Layout.ofTables
    rw [hl.name, hl'.name, hr.name, hr'.name, hl.schema, hl'.schema, hr.schema, hr'.schema]
  have hcolumns : columns l r j = columns l' r' j := by
    unfold columns
    simp only [hl.resolve?_eq hl', hr.resolve?_eq hr', hl.name, hl'.name, hr.name, hr'.name]
  unfold ofTables
  rw [← hcolumns, ← hlayout, hl.name, hl'.name, hr.name, hr'.name]
  split
  · rfl
  · rcases columns_cases l r j with ⟨hnone, -⟩ | ⟨i, k, dl, dr, hsome, hdl, hdr, -⟩
    · rw [hnone]
    · have hpairs : pairs l r i k dr.type = pairs l' r' i k dr.type := by
        rw [hl.schema] at hdl
        rw [hr.schema] at hdr
        rw [pairs_eq hl hr (hl.schema ▸ hdl) (hr.schema ▸ hdr),
          pairs_eq hl' hr' (hl'.schema ▸ hdl) (hr'.schema ▸ hdr), hl.rows_eq, hl'.rows_eq,
          hr.rows_eq, hr'.rows_eq]
      have hdr' : r'.schema.columns[k]? = some dr := by
        rw [hr'.schema, ← hr.schema, hdr]
      simp only [hsome, hdr, hdr', hpairs]

/-! ## conditions and projections -/

/-- a field shows the value that stands in its place -/
theorem value?_of_means (hl : l.Stores cl) (hr : r.Stores cr) {i : Nat} {f : Field}
    (hf : Layout.Means l r i f) {p : RowPair} (hp1 : p.1 ∈ l.rows) (hp2 : p.2 ∈ r.rows) :
    ∃ v, f.value? p = some v ∧ p.joined[i]? = some v := by
  unfold RowPair.joined
  have hlen := hl.length_values hp1
  cases hf with
  | left hd =>
    obtain ⟨v, hv⟩ := hl.getElem?_of_mem hp1 hd
    refine ⟨v, (hl.get?_of_mem hp1 hd).trans hv, ?_⟩
    rw [List.getElem?_append_left (List.getElem?_eq_some_iff.1 hv).1, hv]
  | right hd =>
    obtain ⟨v, hv⟩ := hr.getElem?_of_mem hp2 hd
    refine ⟨v, (hr.get?_of_mem hp2 hd).trans hv, ?_⟩
    rw [List.getElem?_append_right (by rw [hlen]; exact Nat.le_add_left _ _), hlen,
      Nat.add_sub_cancel, hv]

/-- a reference fails alike for the labels and for the relations, or finds the place of its field -/
theorem resolve_cases (hl : l.relation.DotFree) (hr : r.relation.DotFree) (hne : l.name ≠ r.name)
    {ref : ColumnRef} (href : ref.Plain) :
    ((Layout.ofTables l r).resolve ref = .error (.column (.unknownInJoin ref)) ∧
        Relation.field l.relation r.relation ref = .error (.column (.unknownInJoin ref))) ∨
      ∃ i f, (Layout.ofTables l r).resolve ref = .ok i ∧
        Relation.field l.relation r.relation ref = .ok f ∧ Layout.Means l r i f := by
  unfold Layout.resolve Relation.field
  rcases optionRel_cases (Layout.resolve?_rel hl hr hne href) with
    ⟨hi, hf⟩ | ⟨i, f, hi, hf, hmeans⟩
  · rw [hi, hf]
    exact Or.inl ⟨rfl, rfl⟩
  · rw [hi, hf]
    exact Or.inr ⟨i, f, rfl, rfl, hmeans⟩

/-- all references are found, each in the place of its field, or one fails alike for both -/
theorem resolveAll_cases (hl : l.relation.DotFree) (hr : r.relation.DotFree) (hne : l.name ≠ r.name)
    {refs : List ColumnRef} (hrefs : ∀ ref ∈ refs, ref.Plain) :
    (∃ e, (Layout.ofTables l r).resolveAll refs = .error e ∧
        refs.mapM (Relation.field l.relation r.relation) = .error e) ∨
      ∃ is fs, (Layout.ofTables l r).resolveAll refs = .ok is ∧
        refs.mapM (Relation.field l.relation r.relation) = .ok fs ∧
        List.Forall₂ (Layout.Means l r) is fs := by
  induction refs with
  | nil => exact Or.inr ⟨[], [], rfl, rfl, .nil⟩
  | cons ref refs ih =>
    rw [List.forall_mem_cons] at hrefs
    unfold Layout.resolveAll
    rw [List.mapM_cons]
    rcases resolve_cases hl hr hne hrefs.1 with ⟨hi, hf⟩ | ⟨i, f, hi, hf, hmeans⟩
    · rw [hi, hf]
      exact Or.inl ⟨_, rfl, rfl⟩
    · rw [hi, hf]
      rcases ih hrefs.2 with ⟨e, his, hfs⟩ | ⟨is, fs, his, hfs, hall⟩
      · rw [hfs]
        exact Or.inl ⟨e, by simp only [his]; rfl, rfl⟩
      · rw [hfs]
        exact Or.inr ⟨i :: is, f :: fs, by simp only [his]; rfl, rfl, .cons hmeans hall⟩

theorem filter_eq (hl : l.Stores cl) (hr : r.Stores cr) (hdl : l.relation.DotFree)
    (hdr : r.relation.DotFree) (hne : l.name ≠ r.name) {condition : Option Condition}
    (hrefs : ∀ k ∈ condition, k.column.Plain) {ps : List RowPair}
    (hps : ∀ p ∈ ps, p.1 ∈ l.rows ∧ p.2 ∈ r.rows) :
    filter (Layout.ofTables l r) (ps.map RowPair.joined) condition
      = (Relation.keep l.relation r.relation condition ps).map (·.map RowPair.joined) := by
  cases condition with
  | none => rfl
  | some k =>
    unfold filter Relation.keep
    rcases resolve_cases hdl hdr hne (hrefs k rfl) with ⟨hi, hf⟩ | ⟨i, f, hi, hf, hmeans⟩
    · simp only [hi, hf]
      rfl
    · simp only [hi, hf, hmeans.type, hmeans.label]
      cases f.type.coerce? k.value with
      | none => rfl
      | some v =>
        apply congrArg Except.ok
        rw [List.filter_map]
        apply congrArg (List.map RowPair.joined)
        apply List.filter_congr
        intro p hp
        obtain ⟨w, hw, hjoined⟩ := value?_of_means hl hr hmeans (hps p hp).1 (hps p hp).2
        rw [Function.comp_apply, hjoined, hw]
        rfl

theorem pick_eq (hl : l.Stores cl) (hr : r.Stores cr) {is : List Nat} {fs : List Field}
    (hall : List.Forall₂ (Layout.Means l r) is fs) {p : RowPair} (hp1 : p.1 ∈ l.rows)
    (hp2 : p.2 ∈ r.rows) : pick is p.joined = fs.map fun f => (f.value? p).getD .null := by
  unfold pick
  induction hall with
  | nil => rfl
  | cons hmeans _ ih =>
    obtain ⟨v, hv, hjoined⟩ := value?_of_means hl hr hmeans hp1 hp2
    rw [List.map_cons, List.map_cons, hjoined, hv, ih]

theorem project_eq (hl : l.Stores cl) (hr : r.Stores cr) (hdl : l.relation.DotFree)
    (hdr : r.relation.DotFree) (hne : l.name ≠ r.name) {projection : Projection}
    (hrefs : ∀ refs, projection = .columns refs → ∀ ref ∈ refs, ref.Plain) {ps : List RowPair}
    (hps : ∀ p ∈ ps, p.1 ∈ l.rows ∧ p.2 ∈ r.rows) :
    project (Layout.ofTables l r) (ps.map RowPair.joined) projection
      = Relation.narrow l.relation r.relation projection ps := by
  cases projection with
  | all =>
    have hlabels (t : Table) : t.relation.labels
        = t.schema.columns.map fun d => Layout.labelOf t.name d.name := List.map_map
    unfold project Relation.narrow Layout.ofTables
    rw [hlabels, hlabels]
  | columns refs =>
    unfold project Relation.narrow
    rcases resolveAll_cases hdl hdr hne (hrefs refs rfl) with
      ⟨e, his, hfs⟩ | ⟨is, fs, his, hfs, hall⟩
    · simp only [his, hfs]
      rfl
    · simp only [his, hfs]
      apply congrArg fun rows => Except.ok (QueryResult.mk (refs.map (·.label)) rows)
      rw [List.map_map]
      exact List.map_congr_left fun p hp => pick_eq hl hr hall (hps p hp).1 (hps p hp).2

/-! ## whole joins -/

theorem mem_of_keep {L R : Relation} {condition : Option Condition} {ps qs : List RowPair}
    (h : Relation.keep L R condition ps = .ok qs) {p : RowPair} (hp : p ∈ qs) : p ∈ ps := by
  unfold Relation.keep at h
  split at h
  · cases h
    exact hp
  · split at h
    · cases h
    · split at h
      · cases h
      · cases h
        exact (List.mem_filter.1 hp).1

/-- the answer to a query of two tables is the join of their relations -/
theorem ofTables_eq (hl : l.Stores cl) (hr : r.Stores cr) (hdl : l.relation.DotFree)
    (hdr : r.relation.DotFree) (hne : l.name ≠ r.name) (j : JoinClause) {q : Select}
    (hcondition : ∀ k ∈ q.condition, k.column.Plain)
    (hprojection : ∀ refs, q.projection = .columns refs → ∀ ref ∈ refs, ref.Plain) :
    ofTables l r q j = l.relation.join r.relation q j := by
  unfold ofTables Relation.join
  rw [if_neg hne]
  rcases columns_cases l r j with ⟨hcolumns, hrelated⟩ | ⟨i, k, dl, dr, hcolumns, hd, hd', hrelated⟩
  · simp only [hcolumns, hrelated]
    rfl
  · have hmem {p : RowPair} (hp : p ∈ (l.rows.product r.rows).filter
        (Relation.meets (dl.name, dl.type) (dr.name, dr.type))) : p.1 ∈ l.rows ∧ p.2 ∈ r.rows :=
      List.mem_product.1 (List.mem_filter.1 hp).1
    have hfilter := filter_eq hl hr hdl hdr hne hcondition fun p hp => hmem hp
    have hrows (t : Table) : t.relation.rows = t.rows := rfl
    simp only [hcolumns, hrelated, hd', pairs_eq hl hr hd hd', hfilter, hrows]
    cases hkeep : Relation.keep l.relation r.relation q.condition
        ((l.rows.product r.rows).filter
          (Relation.meets (dl.name, dl.type) (dr.name, dr.type))) with
    | error e => rfl
    | ok ps =>
      exact project_eq hl hr hdl hdr hne hprojection fun p hp => hmem (mem_of_keep hkeep hp)

end Join

/-! ## queries of a database -/

/-- the columns that a projection and a condition refer to -/
def Sql.Select.references (q : Select) : List ColumnRef :=
  (match q.projection with
    | .all => []
    | .columns refs => refs) ++ (q.condition.map (·.column)).toList

namespace Database

/-- no name of a table or a column holds a dot -/
def DotFree (db : Database) : Prop := ∀ e ∈ db.tables, e.2.relation.DotFree

instance (db : Database) : Decidable db.DotFree := by unfold DotFree; infer_instance

variable {db : Database} {q : Select} {j : JoinClause} {l r : Table}

theorem select_eq_ofTables (hjoin : q.join = some j) (hl : db.table? q.table = some l)
    (hr : db.table? j.table = some r) : db.select q = Join.ofTables l r q j := by
  unfold select Join.run table
  simp only [hjoin, hl, hr]

/-- the answer to a query is the join of the two relations; its references may be qualified by any
names -/
theorem Sound.select_eq_of_plain (h : db.Sound) (hjoin : q.join = some j)
    (hl : db.table? q.table = some l) (hr : db.table? j.table = some r) (hne : q.table ≠ j.table)
    (hdl : l.relation.DotFree) (hdr : r.relation.DotFree)
    (hrefs : ∀ ref ∈ q.references, ref.Plain) :
    db.select q = l.relation.join r.relation q j := by
  obtain ⟨cl, hstores, hname⟩ := h.stores hl
  obtain ⟨cr, hstores', hname'⟩ := h.stores hr
  have hne' : l.name ≠ r.name := by
    rw [hstores.name, hstores'.name, hname, hname']
    exact hne
  have hcondition (k : Condition) (hk : k ∈ q.condition) : k.column.Plain := by
    apply hrefs
    unfold Select.references
    rw [hk]
    exact List.mem_append_right _ (List.mem_singleton_self _)
  have hprojection (refs : List ColumnRef) (hp : q.projection = .columns refs)
      (ref : ColumnRef) (href : ref ∈ refs) : ref.Plain := by
    apply hrefs
    unfold Select.references
    rw [hp]
    exact List.mem_append_left _ href
  rw [select_eq_ofTables hjoin hl hr]
  exact Join.ofTables_eq hstores hstores' hdl hdr hne' j hcondition hprojection

theorem Sound.select_eq (h : db.Sound) (hjoin : q.join = some j)
    (hl : db.table? q.table = some l) (hr : db.table? j.table = some r) (hne : q.table ≠ j.table)
    (hdl : l.relation.DotFree) (hdr : r.relation.DotFree)
    (hrefs : ∀ ref ∈ q.references, ref.DotFree) :
    db.select q = l.relation.join r.relation q j :=
  h.select_eq_of_plain hjoin hl hr hne hdl hdr fun ref href => (hrefs ref href).plain

/-- a query with a join answers with the join of the two relations, and so it does in any other
database where the two tables are the same relations, whatever indexes they carry -/
theorem select_eq_join (h : db.Reachable) (hdot : db.DotFree) (hjoin : q.join = some j)
    (hl : db.table? q.table = some l) (hr : db.table? j.table = some r) (hne : q.table ≠ j.table)
    (hrefs : ∀ ref ∈ q.references, ref.DotFree) :
    db.select q = l.relation.join r.relation q j ∧
      ∀ (db' : Database) (l' r' : Table), db'.Reachable → db'.table? q.table = some l' →
        db'.table? j.table = some r' → l'.relation = l.relation → r'.relation = r.relation →
        db'.select q = db.select q := by
  have hdl : l.relation.DotFree := hdot _ (Keyed.mem_of_lookup hl)
  have hdr : r.relation.DotFree := hdot _ (Keyed.mem_of_lookup hr)
  have hanswer := h.sound.select_eq hjoin hl hr hne hdl hdr hrefs
  refine ⟨hanswer, fun db' l' r' h' hl' hr' hsame hsame' => ?_⟩
  rw [hanswer, h'.sound.select_eq hjoin hl' hr' hne (hsame ▸ hdl) (hsame' ▸ hdr) hrefs, hsame,
    hsame']

/-- orders of the users, who are named by text; one order is nobody's -/
def orderOperations (constraints : List String) : List Operation :=
  [.run (.createTable "orders" [⟨"buyer", .text, constraints⟩, ⟨"total", .int, []⟩]),
    .run (.insert "orders" none [.text "3", .int 30]),
    .run (.insert "orders" none [.null, .int 20]),
    .run (.insert "orders" none [.text "1", .int 10])]

/-- the users and their orders -/
def shop (constraints : List String) : Database := users.after (orderOperations constraints)

/-- who has ordered, and for how much, if it is less than the text `30` says -/
def receipts : Select where
  projection := .columns [⟨none, "mail"⟩, ⟨some "orders", "total"⟩]
  table := "users"
  join := some ⟨"orders", ⟨some "orders", "buyer"⟩, ⟨none, "id"⟩⟩
  condition := some ⟨⟨none, "total"⟩, .less, .text "30"⟩

theorem reachable_shop (constraints : List String) : (shop constraints).Reachable :=
  reachable_users.after (orderOperations constraints)

theorem select_eq_join_shop :
    (shop []).select receipts = .ok ⟨["mail", "orders.total"], [[.text "c@x", .int 10]]⟩ ∧
      (shop ["UNIQUE"]).select receipts = (shop []).select receipts := by
  have hrelations : ∀ constraints ∈ [[], ["UNIQUE"]],
      ((shop constraints).table? "users").map Table.relation
          = some ⟨"users", [("id", .int), ("mail", .text)], [⟨["id", "mail"], [.int 1, .text "c@x"]⟩,
              ⟨["id", "mail"], [.int 3, .null]⟩]⟩ ∧
        ((shop constraints).table? "orders").map Table.relation
          = some ⟨"orders", [("buyer", .text), ("total", .int)],
              [⟨["buyer", "total"], [.text "3", .int 30]⟩, ⟨["buyer", "total"], [.null, .int 20]⟩,
                ⟨["buyer", "total"], [.text "1", .int 10]⟩]⟩ := by
    decide +kernel
  obtain ⟨l, hl, hlrel⟩ := Option.map_eq_some_iff.1 (hrelations [] (by simp)).1
  obtain ⟨r, hr, hrrel⟩ := Option.map_eq_some_iff.1 (hrelations [] (by simp)).2
  obtain ⟨l', hl', hlrel'⟩ := Option.map_eq_some_iff.1 (hrelations ["UNIQUE"] (by simp)).1
  obtain ⟨r', hr', hrrel'⟩ := Option.map_eq_some_iff.1 (hrelations ["UNIQUE"] (by simp)).2
  have hdot : (shop []).DotFree := by decide +kernel
  have hrefs : ∀ ref ∈ receipts.references, ref.DotFree := by decide +kernel
  obtain ⟨hanswer, hindex⟩ := select_eq_join (reachable_shop []) hdot (q := receipts) rfl hl hr
    (by decide) hrefs
  refine ⟨?_, hindex (shop ["UNIQUE"]) l' r' (reachable_shop _) hl' hr' ?_ ?_⟩
  · rw [hanswer, hlrel, hrrel]
    decide +kernel
  · rw [hlrel, hlrel']
  · rw [hrrel, hrrel']

end Database

end TableStore
