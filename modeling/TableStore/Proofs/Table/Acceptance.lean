import TableStore.Proofs.Document.Rows
import TableStore.Proofs.Table.Rows

/-!
# Which rows a table accepts

A row given by named values is held against four rules, one after the other: the names, the primary
key, the types, and the values that may stand only once.

* `Row.Named`, `Schema.Keyed`, `Schema.Typed`, `Table.Fresh`   the rules;
* `Table.Welcomes`         all of them are kept;
* `Table.Refuses`          the first that is broken, with the failure it makes;
* `Row.ofPairs_cases`      the names decide whether there is a row at all;
* `Stores.accept_cases`    a table accepts the rows that keep the rules, and refuses any other for
                           the first rule that it breaks.
-/

namespace TableStore

/-- every name is that of a column, and none stands twice -/
structure Row.Named (columns : List String) (pairs : List (String × Value)) : Prop where
  known : ∀ e ∈ pairs, e.1 ∈ columns
  distinct : (pairs.map (·.1)).Nodup

namespace Schema

/-- the primary key, if there is one, is given a value -/
def Keyed (s : Schema) (pairs : List (String × Value)) : Prop :=
  ∀ d ∈ s.columns, d.isPrimaryKey = true → ∃ v, (d.name, v) ∈ pairs ∧ v ≠ .null

/-- every value can be brought to the type of its column -/
def Typed (s : Schema) (pairs : List (String × Value)) : Prop :=
  ∀ d ∈ s.columns, ∀ v, (d.name, v) ∈ pairs → ∃ w, d.type.coerce? v = some w

/-- the row that named values describe: each brought to the type of its column, and nothing where
none is given -/
def rowOf (s : Schema) (pairs : List (String × Value)) : Row := ⟨s.names, s.valuesOf pairs⟩

end Schema

namespace Table

/-- no row holds a value, brought to the type of its column, that may stand only once -/
def Fresh (t : Table) (pairs : List (String × Value)) : Prop :=
  ∀ d ∈ t.schema.columns, d.isConstrained = true → ∀ v w, (d.name, v) ∈ pairs →
    d.type.coerce? v = some w → w ≠ .null → ∀ r ∈ t.rows, r.get? d.name ≠ some w

/-- a row that keeps every rule -/
structure Welcomes (t : Table) (pairs : List (String × Value)) : Prop where
  named : Row.Named t.schema.names pairs
  keyed : t.schema.Keyed pairs
  typed : t.schema.Typed pairs
  fresh : t.Fresh pairs

/-- the first rule that a row breaks, and the failure that it makes -/
inductive Refuses (t : Table) (pairs : List (String × Value)) : Error → Prop where
  | column (fault : ColumnFault) (broken : ¬ Row.Named t.schema.names pairs) :
    Refuses t pairs (.column fault)
  | keyMissing (column : String) (named : Row.Named t.schema.names pairs)
    (broken : ¬ t.schema.Keyed pairs) : Refuses t pairs (.constraint column .primaryKeyMissing)
  | type (column : String) (fault : TypeFault) (named : Row.Named t.schema.names pairs)
    (keyed : t.schema.Keyed pairs) (broken : ¬ t.schema.Typed pairs) :
    Refuses t pairs (.type column fault)
  | duplicate (column : String) (isPrimaryKey : Bool) (v : Value)
    (named : Row.Named t.schema.names pairs) (keyed : t.schema.Keyed pairs)
    (typed : t.schema.Typed pairs) (broken : ¬ t.Fresh pairs) :
    Refuses t pairs (.constraint column (.duplicate isPrimaryKey v))

end Table

/-! ## the names -/

namespace Row

variable {columns : List String}

/-- a place that is given is given once -/
theorem nodup_of_place {given given' : List (Option Value)} {pairs : List (String × Value)}
    (hlen : given.length = columns.length) (h : place columns given pairs = .ok given') :
    (pairs.map (·.1)).Nodup ∧ ∀ name i, position? columns name = some i →
      (given[i]?.bind id).isSome = true → name ∉ pairs.map (·.1) := by
  induction pairs generalizing given with
  | nil => exact ⟨List.nodup_nil, fun _ _ _ _ => List.not_mem_nil⟩
  | cons e pairs ih =>
    unfold place at h
    split at h
    · cases h
    rename_i k hk
    split at h
    · cases h
    rename_i hfree
    have hlt : k < given.length := by
      rw [hlen]
      exact (List.findIdx?_eq_some_iff_getElem.1 hk).1
    obtain ⟨hdiff, htaken⟩ := ih (by rw [List.length_set, hlen]) h
    rw [List.map_cons, List.nodup_cons]
    refine ⟨⟨htaken e.1 k hk ?_, hdiff⟩, fun name i hi hgiven => ?_⟩
    · rw [List.getElem?_set_self hlt]
      rfl
    · have hki : k ≠ i := by
        rintro rfl
        exact hfree hgiven
      rw [List.mem_cons, not_or]
      refine ⟨?_, htaken name i hi ?_⟩
      · rintro rfl
        exact hki (Option.some.inj (hk.symm.trans hi))
      · rw [List.getElem?_set_ne hki]
        exact hgiven

theorem column_of_place {given : List (Option Value)} {pairs : List (String × Value)} {e : Error}
    (h : place columns given pairs = .error e) : ∃ fault, e = .column fault := by
  induction pairs generalizing given with
  | nil => cases h
  | cons p pairs ih =>
    unfold place at h
    split at h
    · cases h
      exact ⟨_, rfl⟩
    · split at h
      · cases h
        exact ⟨_, rfl⟩
      · exact ih h

/-- named values make a row if every name is known and none stands twice -/
theorem ofPairs_cases (hn : columns.Nodup) (pairs : List (String × Value)) :
    (Named columns pairs ∧ ofPairs columns pairs
        = .ok ⟨columns, columns.map fun c => (pairs.lookup c).getD .null⟩) ∨
      (¬ Named columns pairs ∧ ∃ fault, ofPairs columns pairs = .error (.column fault)) := by
  by_cases h : Named columns pairs
  · exact Or.inl ⟨h, ofPairs_ok hn h.known h.distinct⟩
  · refine Or.inr ⟨h, ?_⟩
    unfold ofPairs
    cases hplace : place columns (columns.map fun _ => none) pairs with
    | error e =>
      obtain ⟨fault, rfl⟩ := column_of_place hplace
      exact ⟨fault, rfl⟩
    | ok given =>
      exact absurd ⟨known_of_place hplace, (nodup_of_place (List.length_map _) hplace).1⟩ h

end Row

/-! ## the values -/

namespace Schema

variable {s : Schema} {pairs : List (String × Value)}

theorem keyed_iff (hdiff : (pairs.map (·.1)).Nodup) :
    s.Keyed pairs ↔ ∀ d ∈ s.columns, d.isPrimaryKey = true →
      (pairs.lookup d.name).getD .null ≠ .null := by
  unfold Keyed
  refine forall₃_congr fun d _ _ => ?_
  simp only [← Keyed.lookup_eq_some_iff hdiff]
  cases pairs.lookup d.name <;> simp

theorem typed_iff (hdiff : (pairs.map (·.1)).Nodup) :
    s.Typed pairs ↔ ∀ d ∈ s.columns, (d.valueIn? pairs).isSome = true := by
  unfold Typed ColumnDef.valueIn?
  refine forall₂_congr fun d _ => ?_
  simp only [← Keyed.lookup_eq_some_iff hdiff, ← Option.isSome_iff_exists]
  cases pairs.lookup d.name with
  | none => simp [coerce?_null]
  | some v => simp

end Schema

namespace Table

theorem type_of_prepareAll {ds : List ColumnDef} {vs : List Value} {e : Error}
    (h : prepareAll ds vs = .error e) : ∃ column fault, e = .type column fault := by
  induction ds generalizing vs with
  | nil => cases h
  | cons d ds ih =>
    cases vs with
    | nil => cases h
    | cons v vs =>
      unfold prepareAll at h
      cases hv : d.type.coerce? v with
      | none =>
        rw [prepare_of_coerce?_eq_none hv] at h
        cases h
        exact ⟨_, _, rfl⟩
      | some w =>
        rw [prepare_eq_ok_iff.2 hv] at h
        dsimp only at h
        cases hrest : prepareAll ds vs with
        | error e' =>
          rw [hrest] at h
          cases h
          exact ih hrest
        | ok ws =>
          rw [hrest] at h
          cases h

section
variable {t : Table} {c : Contents} {pairs : List (String × Value)}

theorem duplicate_of_taken? {ds : List ColumnDef} {vs : List Value} {e : Error}
    (h : t.taken? ds vs = some e) :
    ∃ column isPrimaryKey v, e = .constraint column (.duplicate isPrimaryKey v) := by
  induction ds generalizing vs with
  | nil => cases h
  | cons d ds ih =>
    cases vs with
    | nil => cases h
    | cons v vs =>
      unfold taken? at h
      split at h
      · split at h
        · cases h
          exact ⟨_, _, _, rfl⟩
        · exact ih h
      · exact ih h

theorem keyMissing_of_lacksKey? {r : Row} {e : Error} (h : t.lacksKey? r = some e) :
    ∃ column, e = .constraint column .primaryKeyMissing := by
  unfold lacksKey? at h
  split at h
  · cases h
  · split at h
    · cases h
      exact ⟨_, rfl⟩
    · cases h

/-- the values of a row before they are brought to the types of their columns -/
def givenValues (t : Table) (pairs : List (String × Value)) : List Value :=
  t.schema.columns.map fun d => (pairs.lookup d.name).getD .null

theorem keyed_iff_lacksKey? (hv : t.schema.Valid) (hdiff : (pairs.map (·.1)).Nodup) :
    t.schema.Keyed pairs ↔ t.lacksKey? ⟨t.schema.names, t.givenValues pairs⟩ = none := by
  have hcell {j : Nat} {d : ColumnDef} (hd : t.schema.columns[j]? = some d) :
      (t.givenValues pairs)[j]? = some ((pairs.lookup d.name).getD .null) := by
    unfold givenValues
    rw [List.getElem?_map, hd]
    rfl
  rw [Schema.keyed_iff hdiff, lacksKey?_eq_none_iff hv rfl]
  constructor
  · intro h j d hd hpk
    rw [hcell hd, Option.getD_some]
    exact h d (List.mem_of_getElem? hd) hpk
  · intro h d hd hpk
    obtain ⟨j, hj⟩ := List.mem_iff_getElem?.1 hd
    have hne := h j d hj hpk
    rwa [hcell hj, Option.getD_some] at hne

theorem typed_iff_prepareAll (hdiff : (pairs.map (·.1)).Nodup) :
    t.schema.Typed pairs ↔
      prepareAll t.schema.columns (t.givenValues pairs) = .ok (t.schema.valuesOf pairs) := by
  rw [Schema.typed_iff hdiff]
  unfold givenValues
  rw [prepareAll_map_eq_ok_iff]
  exact ⟨fun h => ⟨h, rfl⟩, And.left⟩

/-- the indexes tell whether a row is fresh -/
theorem Stores.fresh_iff_taken? (h : t.Stores c) (hdiff : (pairs.map (·.1)).Nodup)
    (htyped : t.schema.Typed pairs) :
    t.Fresh pairs ↔ t.taken? t.schema.columns (t.schema.valuesOf pairs) = none := by
  have hhas {j : Nat} {d : ColumnDef} {i : Index} {v : Value} (hd : c.schema.columns[j]? = some d)
      (hi : t.index? d.name = some i) :
      i.has v = false ↔ ∀ r ∈ t.rows, r.get? d.name ≠ some v := by
    rw [Bool.eq_false_iff, ne_eq, (h.serves hd hi).tracks.has_iff, h.mem_columnOf_iff hd]
    simp
  unfold Fresh
  rw [h.schema] at htyped
  rw [taken?_eq_none_iff, h.schema]
  constructor
  · intro hfresh j d w i hd hw hi hne
    have hcon := h.constrained_of_index? hd hi
    have hmem := List.mem_of_getElem? hd
    rw [Schema.getElem?_valuesOf hd, ColumnDef.valueIn?] at hw
    cases hv : pairs.lookup d.name with
    | none =>
      rw [hv, Option.getD_none, coerce?_null _] at hw
      exact absurd (Option.some.inj hw).symm hne
    | some v =>
      have hgiven := Keyed.mem_of_lookup hv
      obtain ⟨u, hu⟩ := htyped d hmem v hgiven
      rw [hv, Option.getD_some, hu] at hw
      cases hw
      exact (hhas hd hi).2 (hfresh d hmem hcon v u hgiven hu hne)
  · intro htaken d hd hcon v w hv hw hne
    obtain ⟨j, hj⟩ := List.mem_iff_getElem?.1 hd
    obtain ⟨i, hi⟩ := h.exists_index? hd hcon
    refine (hhas hj hi).1 (htaken j d w i hj ?_ hi hne)
    rw [Schema.getElem?_valuesOf hj, ColumnDef.valueIn?, Keyed.lookup_of_mem hdiff hv,
      Option.getD_some, hw, Option.getD_some]

/-! ## all rules together -/

theorem Welcomes.not_refuses {e : Error} (h : t.Welcomes pairs) : ¬ t.Refuses pairs e := by
  intro hrefuses
  cases hrefuses with
  | column fault broken => exact broken h.named
  | keyMissing column named broken => exact broken h.keyed
  | type column fault named keyed broken => exact broken h.typed
  | duplicate column isPrimaryKey v named keyed typed broken => exact broken h.fresh

/-- a table accepts the rows that keep the rules, and refuses any other for the first rule that it
breaks -/
theorem Stores.accept_cases (h : t.Stores c) (pairs : List (String × Value)) :
    (t.Welcomes pairs ∧ t.accept pairs = .ok (t.schema.valuesOf pairs)) ∨
      ∃ e, t.Refuses pairs e ∧ t.accept pairs = .error e := by
  have hv : t.schema.Valid := h.schema ▸ h.valid
  have hgiven : t.schema.names.map (fun name => (pairs.lookup name).getD .null)
      = t.givenValues pairs := by
    unfold Schema.names givenValues
    rw [List.map_map]
    rfl
  unfold accept
  rcases Row.ofPairs_cases hv.names pairs with ⟨hnamed, hrow⟩ | ⟨hbroken, fault, hrow⟩
  swap
  · rw [hrow]
    exact Or.inr ⟨_, .column fault hbroken, rfl⟩
  rw [hrow, hgiven]
  dsimp only
  cases hkey : t.lacksKey? ⟨t.schema.names, t.givenValues pairs⟩ with
  | some e =>
    obtain ⟨column, rfl⟩ := keyMissing_of_lacksKey? hkey
    refine Or.inr ⟨_, .keyMissing column hnamed fun hkeyed => ?_, rfl⟩
    rw [keyed_iff_lacksKey? hv hnamed.distinct, hkey] at hkeyed
    cases hkeyed
  | none =>
    have hkeyed := (keyed_iff_lacksKey? hv hnamed.distinct).2 hkey
    cases hprepare : prepareAll t.schema.columns (t.givenValues pairs) with
    | error e =>
      obtain ⟨column, fault, rfl⟩ := type_of_prepareAll hprepare
      refine Or.inr ⟨_, .type column fault hnamed hkeyed fun htyped => ?_, rfl⟩
      rw [typed_iff_prepareAll hnamed.distinct, hprepare] at htyped
      cases htyped
    | ok values =>
      obtain rfl : values = t.schema.valuesOf pairs := (prepareAll_map_eq_ok_iff.1 hprepare).2
      have htyped := (typed_iff_prepareAll hnamed.distinct).2 hprepare
      dsimp only
      cases htaken : t.taken? t.schema.columns (t.schema.valuesOf pairs) with
      | some e =>
        obtain ⟨column, isKey, v, rfl⟩ := duplicate_of_taken? htaken
        refine Or.inr ⟨_, .duplicate column isKey v hnamed hkeyed htyped fun hfresh => ?_, rfl⟩
        rw [h.fresh_iff_taken? hnamed.distinct htyped, htaken] at hfresh
        cases hfresh
      | none =>
        have hfresh := (h.fresh_iff_taken? hnamed.distinct htyped).2 htaken
        exact Or.inl ⟨⟨hnamed, hkeyed, htyped, hfresh⟩, rfl⟩

end

end Table

end TableStore
