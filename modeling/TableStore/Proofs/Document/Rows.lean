import TableStore.Document.Load
import TableStore.Proofs.Table.Insert

/-!
# The rows of a document

* `ColumnDef.valueIn?`, `Schema.valuesOf`   what a row of named values stands for, column by column;
* `Schema.Lawful`       the rows that a schema asks for;
* `Schema.lawful_iff`   rows are lawful if the schema admits what they stand for;
* `Stores.accept_eq_ok_iff`   a table accepts a row that stands for values which its schema admits
                        beside the others;
* `Stores.fill_cases`   all rows are inserted, or the first one is refused that is not taken beside
                        those before it.
-/

namespace TableStore

/-- the value that a row gives a column, brought to its type; empty where it gives none -/
def ColumnDef.valueIn? (d : ColumnDef) (pairs : List (String × Value)) : Option Value :=
  d.type.coerce? ((pairs.lookup d.name).getD .null)

namespace Schema

/-- the values of a row in the order of the columns -/
def valuesOf (s : Schema) (pairs : List (String × Value)) : List Value :=
  s.columns.map fun d => (d.valueIn? pairs).getD .null

/-- only columns of the schema, a value for the primary key, and no value of a wrong type -/
structure Accepts (s : Schema) (pairs : List (String × Value)) : Prop where
  known : ∀ e ∈ pairs, e.1 ∈ s.names
  keyed : ∀ d ∈ s.columns, d.isPrimaryKey = true → ∃ v, (d.name, v) ∈ pairs ∧ v ≠ .null
  typed : ∀ d ∈ s.columns, ∀ v, (d.name, v) ∈ pairs → ∃ w, d.type.coerce? v = some w

/-- rows that are accepted, no two with the same value in a constrained column -/
structure Lawful (s : Schema) (rows : List (List (String × Value))) : Prop where
  accepts : ∀ r ∈ rows, s.Accepts r
  distinct : ∀ d ∈ s.columns, d.isConstrained = true → rows.Pairwise fun r r' =>
    ∀ v, d.valueIn? r = some v → d.valueIn? r' = some v → v = .null

/-! ## one row -/

/-- a row of known names, each value of which can be brought to the type of its column -/
structure Reads (s : Schema) (pairs : List (String × Value)) : Prop where
  known : ∀ e ∈ pairs, e.1 ∈ s.names
  typed : ∀ d ∈ s.columns, (d.valueIn? pairs).isSome = true

variable {s : Schema} {pairs : List (String × Value)}

theorem getElem?_valuesOf {j : Nat} {d : ColumnDef} (hd : s.columns[j]? = some d) :
    (s.valuesOf pairs)[j]? = some ((d.valueIn? pairs).getD .null) := by
  unfold valuesOf
  rw [List.getElem?_map, hd]
  rfl

theorem holds_valueIn? (d : ColumnDef) (pairs : List (String × Value)) :
    d.type.holds ((d.valueIn? pairs).getD .null) = true := by
  cases h : d.valueIn? pairs with
  | none => rfl
  | some w => exact holds_of_coerce? h

theorem valueIn?_eq_some_null_iff {d : ColumnDef} :
    d.valueIn? pairs = some .null ↔ (pairs.lookup d.name).getD .null = .null :=
  coerce?_eq_some_null_iff

/-- a row is accepted if it can be read, and what it stands for fits the schema -/
theorem accepts_iff (hdiff : (pairs.map (·.1)).Nodup) :
    s.Accepts pairs ↔ s.Reads pairs ∧ s.Fits (s.valuesOf pairs) := by
  constructor
  · intro h
    have htyped (d : ColumnDef) (hd : d ∈ s.columns) : ∃ w, d.valueIn? pairs = some w := by
      unfold ColumnDef.valueIn?
      cases hv : pairs.lookup d.name with
      | none => exact ⟨.null, coerce?_null _⟩
      | some v => exact h.typed d hd v (Keyed.mem_of_lookup hv)
    refine ⟨⟨h.known, fun d hd => Option.isSome_iff_exists.2 (htyped d hd)⟩, List.length_map _,
      fun j d w hd hw => ?_, fun j d w hd hw hkey => ?_⟩
    · rw [getElem?_valuesOf hd] at hw
      cases hw
      exact holds_valueIn? d pairs
    · have hmem := List.mem_of_getElem? hd
      obtain ⟨v, hv, hne⟩ := h.keyed d hmem hkey
      obtain ⟨u, hu⟩ := htyped d hmem
      rw [getElem?_valuesOf hd, hu] at hw
      cases hw
      rintro rfl
      rw [valueIn?_eq_some_null_iff, Keyed.lookup_of_mem hdiff hv] at hu
      exact hne hu
  · rintro ⟨hreads, hfits⟩
    refine ⟨hreads.known, fun d hd hkey => ?_, fun d hd v hv => ?_⟩
    · obtain ⟨j, hj⟩ := List.mem_iff_getElem?.1 hd
      have hne := hfits.keyed j d _ hj (getElem?_valuesOf hj) hkey
      cases hv : pairs.lookup d.name with
      | none =>
        rw [valueIn?_eq_some_null_iff.2 (by rw [hv]; rfl)] at hne
        exact absurd rfl hne
      | some v =>
        refine ⟨v, Keyed.mem_of_lookup hv, ?_⟩
        rintro rfl
        rw [valueIn?_eq_some_null_iff.2 (by rw [hv]; rfl)] at hne
        exact absurd rfl hne
    · have hsome := hreads.typed d hd
      unfold ColumnDef.valueIn? at hsome
      rw [Keyed.lookup_of_mem hdiff hv] at hsome
      exact Option.isSome_iff_exists.1 hsome

/-- rows are lawful if they can be read, and the schema admits what they stand for -/
theorem lawful_iff {rows : List (List (String × Value))}
    (hdiff : ∀ r ∈ rows, (r.map (·.1)).Nodup) :
    s.Lawful rows ↔ (∀ r ∈ rows, s.Reads r) ∧ s.Admits (rows.map s.valuesOf) := by
  have hcolumn {j : Nat} {d : ColumnDef} (hd : s.columns[j]? = some d) :
      columnOf j (rows.map s.valuesOf) = rows.map fun r => (d.valueIn? r).getD .null := by
    unfold columnOf
    rw [List.map_map]
    exact List.map_congr_left fun r _ => by
      rw [Function.comp_apply, getElem?_valuesOf hd, Option.getD_some]
  constructor
  · intro h
    have hrows (r : List (String × Value)) (hr : r ∈ rows) :=
      (accepts_iff (hdiff r hr)).1 (h.accepts r hr)
    refine ⟨fun r hr => (hrows r hr).1, ?_, fun j d hd hcon => ?_⟩
    · intro row hrow
      obtain ⟨r, hr, rfl⟩ := List.mem_map.1 hrow
      exact (hrows r hr).2
    · rw [hcolumn hd, Distinct, List.pairwise_map]
      refine (h.distinct d (List.mem_of_getElem? hd) hcon).imp_of_mem fun {r r'} hr hr' hne => ?_
      have hd := List.mem_of_getElem? hd
      obtain ⟨v, hv⟩ := Option.isSome_iff_exists.1 ((hrows r hr).1.typed d hd)
      obtain ⟨v', hv'⟩ := Option.isSome_iff_exists.1 ((hrows r' hr').1.typed d hd)
      rw [hv, hv']
      rintro rfl
      exact hne _ hv hv'
  · rintro ⟨hreads, hadmits⟩
    refine ⟨fun r hr => ?_, fun d hd hcon => ?_⟩
    · exact (accepts_iff (hdiff r hr)).2
        ⟨hreads r hr, hadmits.fits _ (List.mem_map.2 ⟨r, hr, rfl⟩)⟩
    · obtain ⟨j, hj⟩ := List.mem_iff_getElem?.1 hd
      have hdistinct := hadmits.distinct j d hj hcon
      rw [hcolumn hj, Distinct, List.pairwise_map] at hdistinct
      refine hdistinct.imp fun {r r'} hsame v hv hv' => ?_
      rw [hv, hv'] at hsame
      exact hsame rfl

/-- some of the rows are lawful where all of them are -/
theorem Lawful.sublist {rows rows' : List (List (String × Value))} (h : s.Lawful rows)
    (hsub : rows'.Sublist rows) : s.Lawful rows' :=
  ⟨fun r hr => h.accepts r (hsub.subset hr), fun d hd hcon => (h.distinct d hd hcon).sublist hsub⟩

end Schema

namespace Table

/-! ## what a table accepts -/

theorem prepareAll_map_eq_ok_iff {ds : List ColumnDef} {f : ColumnDef → Value} {ws : List Value} :
    prepareAll ds (ds.map f) = .ok ws ↔
      (∀ d ∈ ds, (d.type.coerce? (f d)).isSome = true) ∧
        ws = ds.map fun d => (d.type.coerce? (f d)).getD .null := by
  induction ds generalizing ws with
  | nil =>
    constructor
    · intro h
      cases h
      exact ⟨List.forall_mem_nil _, rfl⟩
    · rintro ⟨-, rfl⟩
      rfl
  | cons d ds ih =>
    rw [List.map_cons, List.forall_mem_cons, List.map_cons]
    unfold prepareAll
    cases hd : d.type.coerce? (f d) with
    | none =>
      rw [prepare_of_coerce?_eq_none hd]
      constructor
      · intro h
        cases h
      · rintro ⟨⟨h, -⟩, -⟩
        cases h
    | some w =>
      rw [prepare_eq_ok_iff.2 hd]
      dsimp only
      rw [map_eq_ok_iff]
      simp only [ih]
      constructor
      · rintro ⟨us, ⟨hds, rfl⟩, rfl⟩
        exact ⟨⟨rfl, hds⟩, rfl⟩
      · rintro ⟨⟨-, hds⟩, rfl⟩
        exact ⟨_, ⟨hds, rfl⟩, rfl⟩

variable {t : Table} {c : Contents}

/-- a table accepts a row that stands for values which its schema admits beside the others -/
theorem Stores.accept_eq_ok_iff (h : t.Stores c) {pairs : List (String × Value)}
    (hdiff : (pairs.map (·.1)).Nodup) {values : List Value} :
    t.accept pairs = .ok values ↔ c.schema.Reads pairs ∧ values = c.schema.valuesOf pairs ∧
      c.schema.Admits (c.rows ++ [values]) := by
  have hrow (hknown : ∀ e ∈ pairs, e.1 ∈ c.schema.names) :
      Row.ofPairs c.schema.names pairs = .ok ⟨c.schema.names,
        c.schema.columns.map fun d => (pairs.lookup d.name).getD .null⟩ := by
    rw [Row.ofPairs_ok h.valid.names hknown hdiff, Schema.names, List.map_map]
    rfl
  constructor
  · intro ha
    have hadmits := accept_admits h ha
    unfold accept at ha
    rw [h.schema] at ha
    have hknown : ∀ e ∈ pairs, e.1 ∈ c.schema.names := by
      unfold Row.ofPairs at ha
      split at ha
      · cases ha
      · rename_i r hr
        split at hr
        · cases hr
        · rename_i given hplace
          exact Row.known_of_place hplace
    rw [hrow hknown] at ha
    dsimp only at ha
    split at ha
    · cases ha
    · split at ha
      · cases ha
      · rename_i ws hprepare
        obtain ⟨htyped, hws⟩ := prepareAll_map_eq_ok_iff.1 hprepare
        split at ha
        · cases ha
        · cases ha
          exact ⟨⟨hknown, htyped⟩, hws, hadmits⟩
  · rintro ⟨hreads, rfl, hadmits⟩
    refine accept_of_admits h (hrow hreads.known) ?_ hadmits
    exact prepareAll_map_eq_ok_iff.2 ⟨hreads.typed, rfl⟩

end Table

/-! ## rows one by one -/

/-- the rows can be read, and are admitted beside the rows that are there -/
def Contents.Takes (c : Contents) (rows : List (List (String × Value))) : Prop :=
  (∀ r ∈ rows, c.schema.Reads r) ∧ c.schema.Admits (c.rows ++ rows.map c.schema.valuesOf)

/-- with one more row -/
def Contents.add (c : Contents) (r : List (String × Value)) : Contents :=
  { c with rows := c.rows ++ [c.schema.valuesOf r] }

theorem Contents.takes_cons {c : Contents} {r : List (String × Value)}
    {rows : List (List (String × Value))} :
    c.Takes (r :: rows) ↔ c.schema.Reads r ∧ (c.add r).Takes rows := by
  unfold Takes add
  rw [List.forall_mem_cons, List.map_cons, List.append_cons, and_assoc]

namespace Table

variable {t : Table} {c : Contents}

/-- a row that is accepted is added, and no other -/
theorem Stores.insert_row_cases (h : t.Stores c) {r : List (String × Value)}
    (hdiff : (r.map (·.1)).Nodup) :
    (c.Takes [r] ∧ ∃ row u, t.insert r = .ok row u ∧ u.Stores (c.add r)) ∨
      (¬ c.Takes [r] ∧ ∃ e, t.insert r = .fail e t) := by
  rcases insert_cases h r with ⟨e, ha, hinsert⟩ | ⟨values, u, ha, hinsert, hstores⟩
  · refine Or.inr ⟨fun htakes => ?_, e, hinsert⟩
    have hok := (h.accept_eq_ok_iff hdiff).2 ⟨htakes.1 r List.mem_cons_self, rfl, htakes.2⟩
    rw [hok] at ha
    cases ha
  · obtain ⟨hreads, rfl, hadmits⟩ := (h.accept_eq_ok_iff hdiff).1 ha
    exact Or.inl ⟨⟨List.forall_mem_singleton.2 hreads, hadmits⟩, _, u, hinsert, hstores⟩

/-- either all rows are inserted, or the first one is refused that is not taken beside those before
it -/
theorem Stores.fill_cases (h : t.Stores c) (key : String) (pos : Nat)
    (rows : List (List (String × Value))) (hdiff : ∀ r ∈ rows, (r.map (·.1)).Nodup) :
    (c.Takes rows ∧ ∃ u, TableDocument.fill key pos t rows = .ok u ∧
        u.Stores { c with rows := c.rows ++ rows.map c.schema.valuesOf }) ∨
      ∃ n e, n < rows.length ∧ c.Takes (rows.take n) ∧ ¬ c.Takes (rows.take (n + 1)) ∧
        TableDocument.fill key pos t rows = .error (.row (pos + n) key e) := by
  induction rows generalizing t c pos with
  | nil =>
    refine Or.inl ⟨⟨List.forall_mem_nil _, ?_⟩, t, rfl, ?_⟩
    · rw [List.map_nil, List.append_nil]
      exact h.admits
    · rw [List.map_nil, List.append_nil]
      exact h
  | cons r rows ih =>
    rw [List.forall_mem_cons] at hdiff
    rcases h.insert_row_cases hdiff.1 with ⟨htakes, row, u, hinsert, hstores⟩ | ⟨htakes, e, hinsert⟩
    · have hreads : c.schema.Reads r := htakes.1 r List.mem_cons_self
      have hfill : TableDocument.fill key pos t (r :: rows)
          = TableDocument.fill key (pos + 1) u rows := by
        rw [TableDocument.fill, hinsert]
        rfl
      rw [hfill, Contents.takes_cons]
      rcases ih hstores (pos + 1) hdiff.2 with
        ⟨hrest, w, hw, hstores'⟩ | ⟨n, e, hn, hbefore, hfault, hw⟩
      · refine Or.inl ⟨⟨hreads, hrest⟩, w, hw, ?_⟩
        rw [List.map_cons, List.append_cons]
        exact hstores'
      · refine Or.inr ⟨n + 1, e, Nat.succ_lt_succ hn, ?_, ?_, ?_⟩
        · rw [List.take_succ_cons, Contents.takes_cons]
          exact ⟨hreads, hbefore⟩
        · rw [List.take_succ_cons, Contents.takes_cons]
          exact fun h => hfault h.2
        · rw [hw, Nat.add_assoc, Nat.add_comm 1 n]
    · refine Or.inr ⟨0, e, Nat.succ_pos _, ⟨List.forall_mem_nil _, ?_⟩, htakes, ?_⟩
      · rw [List.take_zero, List.map_nil, List.append_nil]
        exact h.admits
      · rw [TableDocument.fill, hinsert]
        rfl

end Table

end TableStore
