import TableStore.Proofs.Coercion
import TableStore.Proofs.Index
import TableStore.Schema

/-!
# Schemas, and the rows that they admit

* `Schema.Valid`            what `Schema.ofColumns` asks of the columns, and nothing else does;
* `Valid.position?_eq`      in a valid schema a column is found under its name;
* `Valid.primaryKey?_eq`    and the primary key is the only one;
* `Schema.Fits`             a row that a schema can store: one value per column, of its type, and a
                            primary key that is not empty;
* `Schema.Admits`           rows that fit, with no value twice in a constrained column.
-/

namespace TableStore

namespace Schema

/-! ## valid schemas -/

/-- one column at least, no name twice, at most one primary key, and that one unique -/
structure Valid (s : Schema) : Prop where
  nonempty : s.columns ≠ []
  names : s.names.Nodup
  keys : ∀ d ∈ s.columns, d.isPrimaryKey = true → d.isUnique = true
  oneKey : s.columns.countP (·.isPrimaryKey) ≤ 1

theorem columnFault?_eq_none_iff (ds : List ColumnDef) (seen : List String) :
    columnFault? seen ds = none ↔
      (∀ d ∈ ds, d.name ∉ seen) ∧ (ds.map (·.name)).Nodup ∧
        ∀ d ∈ ds, d.isPrimaryKey = true → d.isUnique = true := by
  induction ds generalizing seen with
  | nil => simp [columnFault?]
  | cons d ds ih =>
    unfold columnFault?
    rw [List.forall_mem_cons, List.forall_mem_cons, List.map_cons, List.nodup_cons]
    by_cases hseen : d.name ∈ seen
    · simp [hseen]
    · rw [if_neg hseen]
      by_cases hkey : (d.isPrimaryKey && !d.isUnique) = true
      · rw [if_pos hkey]
        simp only [Bool.and_eq_true, Bool.not_eq_true'] at hkey
        simp [hkey]
      · rw [if_neg hkey, ih]
        have hkey' : d.isPrimaryKey = true → d.isUnique = true := by
          simpa using hkey
        constructor
        · rintro ⟨hnew, hnodup, hkeys⟩
          refine ⟨⟨hseen, fun e he hs => hnew e he (List.mem_cons_of_mem _ hs)⟩, ⟨?_, hnodup⟩,
            hkey', hkeys⟩
          intro hmem
          obtain ⟨e, he, hname⟩ := List.mem_map.1 hmem
          exact hnew e he (hname ▸ List.mem_cons_self)
        · rintro ⟨⟨-, hnew⟩, ⟨hd, hnodup⟩, -, hkeys⟩
          refine ⟨fun e he hs => ?_, hnodup, hkeys⟩
          rcases List.mem_cons.1 hs with hname | hs
          · exact hd (List.mem_map.2 ⟨e, he, hname⟩)
          · exact hnew e he hs

/-- the schemas that can be made are the valid ones -/
theorem ofColumns_eq_ok_iff {columns : List ColumnDef} {s : Schema} :
    ofColumns columns = .ok s ↔ s.columns = columns ∧ s.Valid := by
  have hfault := columnFault?_eq_none_iff columns []
  unfold ofColumns
  by_cases hnil : columns = []
  · rw [if_pos hnil]
    constructor
    · intro h
      cases h
    · rintro ⟨hs, hv⟩
      exact absurd (hs.trans hnil) hv.nonempty
  · rw [if_neg hnil]
    cases hf : columnFault? [] columns with
    | some fault =>
      constructor
      · intro h
        cases h
      · rintro ⟨rfl, hv⟩
        rw [hfault.2 ⟨by simp, hv.names, hv.keys⟩] at hf
        cases hf
    | none =>
      obtain ⟨-, hnames, hkeys⟩ := hfault.1 hf
      dsimp only
      by_cases hcount : columns.countP (·.isPrimaryKey) > 1
      · rw [if_pos hcount]
        constructor
        · intro h
          cases h
        · rintro ⟨rfl, hv⟩
          exact absurd hv.oneKey (Nat.not_le_of_gt hcount)
      · rw [if_neg hcount]
        constructor
        · intro h
          cases h
          exact ⟨rfl, hnil, hnames, hkeys, Nat.le_of_not_gt hcount⟩
        · rintro ⟨rfl, -⟩
          rfl

theorem schema_of_ofColumns {columns : List ColumnDef} {e : Error}
    (h : ofColumns columns = .error e) : ∃ fault, e = .schema fault := by
  unfold ofColumns at h
  split at h
  · cases h
    exact ⟨_, rfl⟩
  · split at h
    · cases h
      exact ⟨_, rfl⟩
    · dsimp only at h
      split at h
      · cases h
        exact ⟨_, rfl⟩
      · cases h

/-- columns make a valid schema, or none -/
theorem ofColumns_cases (columns : List ColumnDef) :
    ((mk columns).Valid ∧ ofColumns columns = .ok ⟨columns⟩) ∨
      ¬ (mk columns).Valid ∧ ∃ fault, ofColumns columns = .error (.schema fault) := by
  by_cases hv : (mk columns).Valid
  · exact Or.inl ⟨hv, ofColumns_eq_ok_iff.2 ⟨rfl, hv⟩⟩
  · refine Or.inr ⟨hv, ?_⟩
    cases h : ofColumns columns with
    | ok s =>
      obtain ⟨rfl, hs⟩ := ofColumns_eq_ok_iff.1 h
      exact absurd hs hv
    | error e =>
      obtain ⟨fault, rfl⟩ := schema_of_ofColumns h
      exact ⟨fault, rfl⟩

/-! ## columns by name -/

variable {s : Schema}

theorem mem_names_of_getElem? {j : Nat} {d : ColumnDef} (hd : s.columns[j]? = some d) :
    d.name ∈ s.names :=
  List.mem_map.2 ⟨d, List.mem_of_getElem? hd, rfl⟩

theorem of_position? {name : String} {j : Nat} (h : s.position? name = some j) :
    ∃ d, s.columns[j]? = some d ∧ d.name = name ∧ s.column? name = some d := by
  obtain ⟨hj, hname, hfirst⟩ := List.findIdx?_eq_some_iff_getElem.1 h
  refine ⟨s.columns[j], List.getElem?_eq_getElem hj, of_decide_eq_true hname, ?_⟩
  refine List.find?_eq_some_iff_getElem.2 ⟨hname, j, hj, rfl, fun k hk => ?_⟩
  simpa using hfirst k hk

theorem lt_of_position? {name : String} {j : Nat} (h : s.position? name = some j) :
    j < s.columns.length := (List.findIdx?_eq_some_iff_getElem.1 h).1

theorem position?_eq_none_iff {name : String} : s.position? name = none ↔ name ∉ s.names := by
  unfold position? names
  rw [List.findIdx?_eq_none_iff, List.mem_map]
  simp

theorem getElem?_names {j : Nat} {d : ColumnDef} (hd : s.columns[j]? = some d) :
    s.names[j]? = some d.name := by
  unfold names
  rw [List.getElem?_map, hd]
  rfl

/-- in a valid schema a name stands for one column -/
theorem Valid.eq_of_name_eq (hv : s.Valid) {j k : Nat} {d e : ColumnDef}
    (hd : s.columns[j]? = some d) (he : s.columns[k]? = some e) (h : d.name = e.name) :
    j = k ∧ d = e := by
  have hj := getElem?_names hd
  have hk := getElem?_names he
  have hlt : j < s.names.length := (List.getElem?_eq_some_iff.1 hj).1
  obtain rfl : j = k := (List.getElem?_inj hlt hv.names).1 (by rw [hj, hk, h])
  exact ⟨rfl, Option.some.inj (hd.symm.trans he)⟩

theorem Valid.eq_of_mem (hv : s.Valid) {d e : ColumnDef} (hd : d ∈ s.columns)
    (he : e ∈ s.columns) (h : d.name = e.name) : d = e := by
  obtain ⟨j, hj⟩ := List.mem_iff_getElem?.1 hd
  obtain ⟨k, hk⟩ := List.mem_iff_getElem?.1 he
  exact (hv.eq_of_name_eq hj hk h).2

/-- in a valid schema a column is found under its name -/
theorem Valid.position?_eq (hv : s.Valid) {j : Nat} {d : ColumnDef} (hd : s.columns[j]? = some d) :
    s.position? d.name = some j := by
  cases h : s.position? d.name with
  | none => exact absurd (mem_names_of_getElem? hd) (position?_eq_none_iff.1 h)
  | some k =>
    obtain ⟨e, he, hname, -⟩ := of_position? h
    rw [(hv.eq_of_name_eq he hd hname).1]

/-- a column marked as a primary key is the primary key -/
theorem Valid.primaryKey?_eq (hv : s.Valid) {d : ColumnDef} (hd : d ∈ s.columns)
    (hkey : d.isPrimaryKey = true) : s.primaryKey? = some d := by
  unfold primaryKey?
  have hone := hv.oneKey
  revert hd hone
  generalize s.columns = ds
  intro hd hone
  induction ds with
  | nil => cases hd
  | cons e es ih =>
    rw [List.countP_cons] at hone
    cases he : e.isPrimaryKey with
    | true =>
      rw [List.find?_cons_of_pos he]
      rcases List.mem_cons.1 hd with rfl | hd
      · rfl
      · have hpos : 0 < es.countP (·.isPrimaryKey) := List.countP_pos_iff.2 ⟨d, hd, hkey⟩
        rw [if_pos he] at hone
        omega
    | false =>
      rw [List.find?_cons_of_neg (by simp [he])]
      rcases List.mem_cons.1 hd with rfl | hd
      · rw [he] at hkey
        cases hkey
      · exact ih hd (by omega)

/-! ## rows -/

/-- a row that a schema can store -/
structure Fits (s : Schema) (row : List Value) : Prop where
  length : row.length = s.columns.length
  typed : ∀ (j : Nat) (d : ColumnDef) (v : Value), s.columns[j]? = some d → row[j]? = some v →
    d.type.holds v = true
  keyed : ∀ (j : Nat) (d : ColumnDef) (v : Value), s.columns[j]? = some d → row[j]? = some v →
    d.isPrimaryKey = true → v ≠ .null

/-- a row that fits has a value for every column -/
theorem Fits.lt_length {s : Schema} {row : List Value} (h : s.Fits row) {j : Nat} {d : ColumnDef}
    (hd : s.columns[j]? = some d) : j < row.length := by
  rw [h.length]
  exact (List.getElem?_eq_some_iff.1 hd).1

end Schema

/-- the values of one column, row by row -/
def columnOf (j : Nat) (rows : List (List Value)) : List Value :=
  rows.map fun row => row[j]?.getD .null

theorem length_columnOf (j : Nat) (rows : List (List Value)) :
    (columnOf j rows).length = rows.length := List.length_map _

theorem getElem?_columnOf (j : Nat) (rows : List (List Value)) (pos : Nat) :
    (columnOf j rows)[pos]? = rows[pos]?.map fun row => row[j]?.getD .null :=
  List.getElem?_map

theorem columnOf_append (j : Nat) (rows : List (List Value)) (row : List Value) :
    columnOf j (rows ++ [row]) = columnOf j rows ++ [row[j]?.getD .null] := List.map_append

namespace Schema

/-- rows that fit, with no value twice in a constrained column -/
structure Admits (s : Schema) (rows : List (List Value)) : Prop where
  fits : ∀ row ∈ rows, s.Fits row
  distinct : ∀ (j : Nat) (d : ColumnDef), s.columns[j]? = some d → d.isConstrained = true →
    Distinct (columnOf j rows)

variable {s : Schema} {rows : List (List Value)}

theorem admits_nil (s : Schema) : s.Admits [] :=
  ⟨by simp, fun _ _ _ _ => List.Pairwise.nil⟩

/-- some of the rows are admitted where all of them are -/
theorem Admits.sublist {rows' : List (List Value)} (h : s.Admits rows)
    (hsub : rows'.Sublist rows) : s.Admits rows' :=
  ⟨fun row hrow => h.fits row (hsub.subset hrow),
    fun j d hd hc => (h.distinct j d hd hc).sublist (hsub.map _)⟩

/-- one more row is admitted if it fits and repeats no value of a constrained column -/
theorem Admits.append {row : List Value} (h : s.Admits rows) (hrow : s.Fits row)
    (hnew : ∀ (j : Nat) (d : ColumnDef) (v : Value), s.columns[j]? = some d →
      d.isConstrained = true → row[j]? = some v → v ≠ .null → v ∉ columnOf j rows) :
    s.Admits (rows ++ [row]) := by
  constructor
  · intro r hr
    rcases List.mem_append.1 hr with hr | hr
    · exact h.fits r hr
    · rw [List.mem_singleton.1 hr]
      exact hrow
  · intro j d hd hc
    rw [columnOf_append, distinct_append_singleton]
    refine ⟨h.distinct j d hd hc, ?_⟩
    cases hv : row[j]? with
    | none => exact fun hne => absurd rfl hne
    | some v => exact hnew j d v hd hc hv

end Schema

end TableStore
