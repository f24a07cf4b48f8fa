import TableStore.Proofs.Table.Contents
import TableStore.Table.Insert

/-!
# What inserting a row does

* `Row.ofPairs_ok`       named values with known and different names make a row;
* `Table.accept_admits`  a row that passes the checks is one that the schema admits beside the rows
                         already there;
* `Table.accept_of_admits`   and the other way round;
* `Table.append_ok`      storing such a row is never refused half way;
* `Table.insert_cases`   an insertion fails and changes nothing, or adds the accepted row as the
                         last one.
-/

namespace TableStore

/-! ## named values -/

namespace Row

variable {columns : List String}

theorem length_of_place {given given' : List (Option Value)} {pairs : List (String × Value)}
    (h : place columns given pairs = .ok given') : given'.length = given.length := by
  induction pairs generalizing given with
  | nil =>
    cases h
    rfl
  | cons e pairs ih =>
    unfold place at h
    split at h
    · cases h
    · split at h
      · cases h
      · rw [ih h, List.length_set]

/-- no name is put into a place that is not there -/
theorem known_of_place {given given' : List (Option Value)} {pairs : List (String × Value)}
    (h : place columns given pairs = .ok given') : ∀ e ∈ pairs, e.1 ∈ columns := by
  induction pairs generalizing given with
  | nil => exact List.forall_mem_nil _
  | cons e pairs ih =>
    unfold place at h
    split at h
    · cases h
    · rename_i i hi
      obtain ⟨hlt, hname, -⟩ := List.findIdx?_eq_some_iff_getElem.1 hi
      split at h
      · cases h
      · refine List.forall_mem_cons.2 ⟨?_, ih h⟩
        rw [← of_decide_eq_true hname]
        exact List.getElem_mem hlt

theorem of_ofPairs {pairs : List (String × Value)} {r : Row} (h : ofPairs columns pairs = .ok r) :
    r.columns = columns ∧ r.values.length = columns.length := by
  unfold ofPairs at h
  split at h
  · cases h
  · rename_i given hplace
    cases h
    refine ⟨rfl, ?_⟩
    rw [List.length_map, length_of_place hplace, List.length_map]

theorem position?_of_nodup (hn : columns.Nodup) {i : Nat} {c : String}
    (hc : columns[i]? = some c) : position? columns c = some i := by
  obtain ⟨hi, rfl⟩ := List.getElem?_eq_some_iff.1 hc
  refine List.findIdx?_eq_some_iff_getElem.2 ⟨hi, decide_eq_true rfl, fun k hk he => ?_⟩
  have hki : k = i := (List.Nodup.getElem_inj_iff hn).1 (of_decide_eq_true he)
  omega

/-- places not yet given take the values of their names; the others keep theirs -/
theorem place_ok (hn : columns.Nodup) (pairs : List (String × Value))
    (given : List (Option Value)) (hlen : given.length = columns.length)
    (hknown : ∀ e ∈ pairs, e.1 ∈ columns) (hdiff : (pairs.map (·.1)).Nodup)
    (hfree : ∀ (i : Nat) (c : String), columns[i]? = some c → c ∈ pairs.map (·.1) →
      given[i]? = some none) :
    ∃ given', place columns given pairs = .ok given' ∧
      ∀ (i : Nat) (c : String), columns[i]? = some c →
        given'[i]? = (pairs.lookup c).elim given[i]? fun v => some (some v) := by
  induction pairs generalizing given with
  | nil => exact ⟨given, rfl, fun _ _ _ => rfl⟩
  | cons e pairs ih =>
    obtain ⟨name, v⟩ := e
    rw [List.map_cons, List.nodup_cons] at hdiff
    obtain ⟨k, hk⟩ := List.mem_iff_getElem?.1 (hknown (name, v) List.mem_cons_self)
    have hnone : given[k]? = some none := hfree k name hk List.mem_cons_self
    have hlt : k < given.length := (List.getElem?_eq_some_iff.1 hnone).1
    have hother {i : Nat} {c : String} (hc : columns[i]? = some c) (hne : c ≠ name) : k ≠ i := by
      rintro rfl
      rw [hk] at hc
      exact hne (Option.some.inj hc).symm
    obtain ⟨given', hplace, hgiven⟩ := ih (given.set k (some v))
      (by rw [List.length_set, hlen]) (fun e he => hknown e (List.mem_cons_of_mem _ he)) hdiff.2
      fun i c hc hmem => by
        have hne : c ≠ name := fun he => hdiff.1 (he ▸ hmem)
        rw [List.getElem?_set_ne (hother hc hne)]
        exact hfree i c hc (List.mem_cons_of_mem _ hmem)
    refine ⟨given', ?_, fun i c hc => ?_⟩
    · unfold place
      rw [position?_of_nodup hn hk]
      simp only [hnone, Option.bind_some, id_eq, Option.isSome_none, Bool.false_eq_true, if_false]
      exact hplace
    · rw [hgiven i c hc, List.lookup_cons]
      by_cases hne : c = name
      · have hik : k = i := by
          have hlc : i < columns.length := (List.getElem?_eq_some_iff.1 hc).1
          exact ((List.getElem?_inj hlc hn).1 (hc.trans (hne ▸ hk.symm))).symm
        have habsent : pairs.lookup c = none := by
          cases hl : pairs.lookup c with
          | none => rfl
          | some w => exact absurd (List.mem_map.2 ⟨_, Keyed.mem_of_lookup hl, hne⟩) hdiff.1
        rw [habsent, ← hik, hne, beq_self_eq_true, Option.elim_none, Option.elim_some,
          List.getElem?_set_self hlt]
      · rw [beq_false_of_ne hne, List.getElem?_set_ne (hother hc hne)]

/-- named values with known and different names make a row, empty where no value is given -/
theorem ofPairs_ok (hn : columns.Nodup) {pairs : List (String × Value)}
    (hknown : ∀ e ∈ pairs, e.1 ∈ columns) (hdiff : (pairs.map (·.1)).Nodup) :
    ofPairs columns pairs
      = .ok ⟨columns, columns.map fun c => (pairs.lookup c).getD .null⟩ := by
  obtain ⟨given', hplace, hgiven⟩ := place_ok hn pairs (columns.map fun _ => none)
    (List.length_map _) hknown hdiff fun i c hc _ => by
      rw [List.getElem?_map, hc]
      rfl
  have hlen : given'.length = columns.length := by
    rw [length_of_place hplace, List.length_map]
  have hvalues : given'.map (·.getD .null) = columns.map fun c => (pairs.lookup c).getD .null := by
    refine List.ext_getElem? fun i => ?_
    rw [List.getElem?_map, List.getElem?_map]
    cases hc : columns[i]? with
    | none =>
      have hi : given'.length ≤ i := hlen ▸ List.getElem?_eq_none_iff.1 hc
      rw [List.getElem?_eq_none hi]
      rfl
    | some c =>
      rw [hgiven i c hc, List.getElem?_map, hc]
      cases hl : pairs.lookup c with
      | none => simp [hl]
      | some v => simp [hl]
  unfold ofPairs
  rw [hplace]
  simp only [hvalues]

theorem get?_eq_of_nodup {r : Row} (hn : r.columns.Nodup) {i : Nat} {c : String}
    (hc : r.columns[i]? = some c) : r.get? c = r.values[i]? := by
  unfold get?
  rw [position?_of_nodup hn hc]
  rfl

end Row

namespace Table

theorem of_prepareAll {ds : List ColumnDef} {vs ws : List Value}
    (hlen : vs.length = ds.length) (h : prepareAll ds vs = .ok ws) :
    ws.length = ds.length ∧ ∀ (j : Nat) (d : ColumnDef) (w : Value), ds[j]? = some d →
      ws[j]? = some w → ∃ v, vs[j]? = some v ∧ d.type.coerce? v = some w := by
  induction ds generalizing vs ws with
  | nil =>
    cases h
    exact ⟨rfl, by simp⟩
  | cons d ds ih =>
    cases vs with
    | nil => cases hlen
    | cons v vs =>
      unfold prepareAll at h
      cases hd : d.prepare v with
      | error e =>
        rw [hd] at h
        cases h
      | ok w =>
        simp only [hd] at h
        cases hrest : prepareAll ds vs with
        | error e =>
          rw [hrest] at h
          cases h
        | ok us =>
          rw [hrest] at h
          cases h
          obtain ⟨hl, hcells⟩ := ih (Nat.succ.inj hlen) hrest
          refine ⟨by rw [List.length_cons, List.length_cons, hl], fun j e u he hu => ?_⟩
          cases j with
          | zero =>
            cases he
            cases hu
            exact ⟨v, rfl, prepare_eq_ok_iff.1 hd⟩
          | succ j => exact hcells j e u he hu

/-! ## the checks -/

section
variable {t : Table} {c : Contents}

theorem taken?_eq_none_iff {ds : List ColumnDef} {vs : List Value} :
    t.taken? ds vs = none ↔
      ∀ (j : Nat) (d : ColumnDef) (v : Value) (i : Index), ds[j]? = some d → vs[j]? = some v →
        t.index? d.name = some i → v ≠ .null → i.has v = false := by
  induction ds generalizing vs with
  | nil => simp [taken?]
  | cons d ds ih =>
    cases vs with
    | nil => simp [taken?]
    | cons v vs =>
      have hsplit : t.taken? (d :: ds) (v :: vs) = none ↔
          (∀ i, t.index? d.name = some i → v ≠ .null → i.has v = false) ∧
            t.taken? ds vs = none := by
        rw [Table.taken?]
        cases hi : t.index? d.name with
        | none => simp
        | some i =>
          dsimp only
          by_cases htaken : (!v.isNull && i.has v) = true
          · rw [if_pos htaken]
            simp only [Bool.and_eq_true, Bool.not_eq_true'] at htaken
            simp only [reduceCtorEq, false_iff, not_and]
            intro hfree
            have hne : v ≠ .null := by
              rintro rfl
              cases htaken.1
            rw [hfree i rfl hne] at htaken
            cases htaken.2
          · rw [if_neg htaken]
            have hfree : v ≠ .null → i.has v = false := by
              intro hne
              cases v <;> simp_all [Value.isNull]
            simp only [Option.some.injEq, forall_eq']
            exact ⟨fun h => ⟨hfree, h⟩, And.right⟩
      rw [hsplit, ih]
      constructor
      · rintro ⟨hhead, htail⟩ j e w i he hw hi
        cases j with
        | zero =>
          cases he
          cases hw
          exact hhead i hi
        | succ j => exact htail j e w i he hw hi
      · intro h
        exact ⟨fun i hi => h 0 d v i rfl rfl hi, fun j e w i he hw hi => h (j + 1) e w i he hw hi⟩

theorem lacksKey?_eq_none_iff (hv : t.schema.Valid) {r : Row} (hr : r.columns = t.schema.names) :
    t.lacksKey? r = none ↔
      ∀ (j : Nat) (d : ColumnDef), t.schema.columns[j]? = some d → d.isPrimaryKey = true →
        (r.values[j]?).getD .null ≠ .null := by
  have hget {j : Nat} {d : ColumnDef} (hd : t.schema.columns[j]? = some d) :
      r.get? d.name = r.values[j]? := by
    refine Row.get?_eq_of_nodup (hr ▸ hv.names) ?_
    rw [hr]
    exact Schema.getElem?_names hd
  unfold lacksKey?
  cases hkey : t.schema.primaryKey? with
  | none =>
    refine ⟨fun _ j d hd hpk => ?_, fun _ => rfl⟩
    rw [hv.primaryKey?_eq (List.mem_of_getElem? hd) hpk] at hkey
    cases hkey
  | some d =>
    obtain ⟨j, hd⟩ := List.mem_iff_getElem?.1 (List.mem_of_find?_eq_some hkey)
    have hpk : d.isPrimaryKey = true := (List.find?_some hkey :)
    dsimp only
    rw [hget hd]
    constructor
    · intro h k e he hek
      have hsame : some d = some e := by
        rw [← hkey, hv.primaryKey?_eq (List.mem_of_getElem? he) hek]
      cases hsame
      rw [(hv.eq_of_name_eq he hd rfl).1]
      intro hnull
      rw [hnull] at h
      cases h
    · intro h
      have hne := h j d hd hpk
      rw [if_neg]
      rwa [Value.isNull_iff]

/-- what passes the checks is admitted beside the rows that are there -/
theorem accept_admits (h : t.Stores c) {pairs : List (String × Value)} {values : List Value}
    (ha : t.accept pairs = .ok values) : c.schema.Admits (c.rows ++ [values]) := by
  unfold accept at ha
  split at ha
  · cases ha
  rename_i r hpairs
  split at ha
  · cases ha
  rename_i hkey
  split at ha
  · cases ha
  rename_i ws hprepare
  split at ha
  · cases ha
  rename_i htaken
  cases ha
  obtain ⟨hcolumns, hlen⟩ := Row.of_ofPairs hpairs
  rw [Schema.names, List.length_map] at hlen
  obtain ⟨hwidth, hcells⟩ := of_prepareAll hlen hprepare
  rw [lacksKey?_eq_none_iff (h.schema ▸ h.valid) hcolumns] at hkey
  rw [taken?_eq_none_iff] at htaken
  rw [h.schema] at hwidth hcells hkey htaken
  have hfits : c.schema.Fits values := by
    refine ⟨hwidth, fun j d w hd hw => ?_, fun j d w hd hw hpk => ?_⟩
    · obtain ⟨v, -, hv⟩ := hcells j d w hd hw
      exact holds_of_coerce? hv
    · obtain ⟨v, hv, hcoerce⟩ := hcells j d w hd hw
      have hne := hkey j d hd hpk
      rw [hv] at hne
      rintro rfl
      exact hne (coerce?_eq_some_null_iff.1 hcoerce)
  refine h.admits.append hfits fun j d w hd hc hw hne hmem => ?_
  obtain ⟨i, hi⟩ := h.exists_index? (List.mem_of_getElem? hd) hc
  have hhas := (h.serves hd hi).tracks.has_iff.2 hmem
  rw [htaken j d w i hd hw hi hne] at hhas
  cases hhas

/-- and the other way round: what the schema admits beside the rows passes the checks -/
theorem accept_of_admits (h : t.Stores c) {pairs : List (String × Value)}
    {given values : List Value}
    (hpairs : Row.ofPairs c.schema.names pairs = .ok ⟨c.schema.names, given⟩)
    (hprepare : prepareAll c.schema.columns given = .ok values)
    (ha : c.schema.Admits (c.rows ++ [values])) : t.accept pairs = .ok values := by
  have hfits : c.schema.Fits values := ha.fits values (by simp)
  have hlen : given.length = c.schema.columns.length :=
    (Row.of_ofPairs hpairs).2.trans (List.length_map _)
  have hkey : t.lacksKey? ⟨c.schema.names, given⟩ = none := by
    refine (lacksKey?_eq_none_iff (h.schema ▸ h.valid) (by rw [h.schema])).2 fun j d hd hpk => ?_
    rw [h.schema] at hd
    have hw := List.getElem?_eq_getElem (hfits.lt_length hd)
    obtain ⟨v, hv, hcoerce⟩ := (of_prepareAll hlen hprepare).2 j d _ hd hw
    rw [hv, Option.getD_some]
    rintro rfl
    rw [coerce?_null _] at hcoerce
    exact hfits.keyed j d _ hd hw hpk (Option.some.inj hcoerce).symm
  have htaken : t.taken? c.schema.columns values = none := by
    refine taken?_eq_none_iff.2 fun j d v i hd hv hi hne => ?_
    have hdistinct := ha.distinct j d hd (h.constrained_of_index? hd hi)
    rw [columnOf_append, hv, distinct_append_singleton] at hdistinct
    rw [Bool.eq_false_iff]
    exact fun hhas => hdistinct.2 hne ((h.serves hd hi).tracks.has_iff.1 hhas)
  unfold accept
  rw [h.schema, hpairs]
  simp only [hkey, hprepare, htaken]

/-! ## storing the row -/

theorem pushAll_ok {cs : List Column} {vs : List Value} (hlen : vs.length = cs.length)
    (h : ∀ (j : Nat) (c : Column) (v : Value), cs[j]? = some c → vs[j]? = some v →
      ∃ c', c.push v = .ok c') :
    ∃ cs', pushAll cs vs = .ok () cs' ∧ cs'.length = cs.length ∧
      ∀ (j : Nat) (c' : Column), cs'[j]? = some c' →
        ∃ c v, cs[j]? = some c ∧ vs[j]? = some v ∧ c.push v = .ok c' := by
  induction cs generalizing vs with
  | nil =>
    obtain rfl := List.eq_nil_of_length_eq_zero hlen
    exact ⟨[], rfl, rfl, by simp⟩
  | cons c cs ih =>
    cases vs with
    | nil => cases hlen
    | cons v vs =>
      obtain ⟨c', hc⟩ := h 0 c v rfl rfl
      obtain ⟨cs', hcs, hlen', hget⟩ :=
        ih (Nat.succ.inj hlen) fun j d w hd hw => h (j + 1) d w hd hw
      refine ⟨c' :: cs', ?_, ?_, fun j d hd => ?_⟩
      · unfold pushAll
        rw [hc]
        simp only [hcs, Outcome.within_ok]
      · rw [List.length_cons, List.length_cons, hlen']
      · cases j with
        | zero =>
          cases hd
          exact ⟨c, v, rfl, rfl, hc⟩
        | succ j => exact hget j d hd

/-- the columns take one more row of values of their types -/
theorem Lays.pushAll {rows : List (List Value)} {values : List Value} (h : t.Lays rows)
    (hfits : t.schema.Fits values) :
    ∃ cs, Table.pushAll t.columns values = .ok () cs ∧
      ∀ indexes, Lays { t with columns := cs, rowCount := t.rowCount + 1, indexes := indexes }
        (rows ++ [values]) := by
  have hpush {j : Nat} {c : Column} {v : Value} (hc : t.columns[j]? = some c)
      (hv : values[j]? = some v) : ∃ d c', t.schema.columns[j]? = some d ∧ c.push v = .ok c' ∧
        c'.Reads d.type (columnOf j rows ++ [v]) := by
    obtain ⟨d, hd, hreads⟩ := h.column hc
    obtain ⟨c', hok, hreads'⟩ := hreads.push (hfits.typed j d v hd hv)
    exact ⟨d, c', hd, hok, hreads'⟩
  obtain ⟨cs, hcs, hlen, hget⟩ := pushAll_ok (hfits.length.trans h.width.symm)
    fun j c v hc hv => by
      obtain ⟨-, c', -, hok, -⟩ := hpush hc hv
      exact ⟨c', hok⟩
  refine ⟨cs, hcs, fun indexes => ⟨?_, hlen.trans h.width, fun j d c' hd hc' => ?_⟩⟩
  · rw [List.length_append, ← h.count]
    rfl
  · obtain ⟨c, v, hc, hv, hok⟩ := hget j c' hc'
    obtain ⟨e, c'', he, hok', hreads⟩ := hpush hc hv
    rw [hok] at hok'
    cases hok'
    rw [show t.schema.columns[j]? = some d from hd] at he
    cases he
    rw [columnOf_append, hv]
    exact hreads

/-- the columns while a row is recorded: those before the place `k` have it, the others not -/
def columnsUpTo (k : Nat) (rows : List (List Value)) (row : List Value) (j : Nat) : List Value :=
  columnOf j (if j < k then rows ++ [row] else rows)

section
variable {s : Schema} {rows : List (List Value)} {row : List Value} {is : List Index}

/-- the index of the next column takes its value of the row -/
theorem record_ok {k : Nat} (h : Indexed s is (columnsUpTo k rows row)) (hv : s.Valid)
    (ha : s.Admits (rows ++ [row])) {d : ColumnDef} {v : Value} (hd : s.columns[k]? = some d)
    (hw : row[k]? = some v) :
    ∃ is', onIndex d.name (fun i => .ofExcept (i.add v rows.length) i) is = .ok () is' ∧
      Indexed s is' (columnsUpTo (k + 1) rows row) := by
  have hbefore : columnsUpTo k rows row k = columnOf k rows := by
    unfold columnsUpTo
    rw [if_neg (Nat.lt_irrefl k)]
  have hafter : columnsUpTo (k + 1) rows row k = columnOf k rows ++ [v] := by
    unfold columnsUpTo
    rw [if_pos (Nat.lt_succ_self k), columnOf_append, hw, Option.getD_some]
  refine h.step_ok hv hd _ (fun j hj => ?_) fun i hserves => ?_
  · have hiff : j < k + 1 ↔ j < k := by omega
    simp only [columnsUpTo, hiff]
  · rw [hbefore] at hserves
    have hnew (hu : i.isUnique = true) : v ≠ .null → v ∉ columnOf k rows := by
      have hdistinct := ha.distinct k d hd (hserves.isUnique ▸ hu)
      rw [columnOf_append, hw, Option.getD_some] at hdistinct
      exact (distinct_append_singleton.1 hdistinct).2
    obtain ⟨i', hok, hclear, htracks⟩ := hserves.tracks.add hnew
    rw [length_columnOf] at hok
    rw [hafter]
    exact ⟨i', by rw [hok]; rfl, hclear.trans hserves.clear, htracks⟩

/-- the indexes take the values of one more row -/
theorem recordAll_ok (h : Indexed s is (columnOf · rows)) (hv : s.Valid)
    (ha : s.Admits (rows ++ [row])) :
    ∃ is', Outcome.forEach (fun dv js =>
        onIndex dv.1.name (fun i => .ofExcept (i.add dv.2 rows.length) i) js)
        (s.columns.zip row) is = .ok () is' ∧ Indexed s is' (columnOf · (rows ++ [row])) := by
  have hlen : row.length = s.columns.length := (ha.fits row (by simp)).length
  have hstart : Indexed s is (columnsUpTo 0 rows row) := h.congr fun j _ => by
    unfold columnsUpTo
    rw [if_neg (Nat.not_lt_zero j)]
  obtain ⟨is', hok, k, hrest, hdone⟩ := Outcome.forEach_ok
    (fun rest js => ∃ k, rest = (s.columns.zip row).drop k ∧
      Indexed s js (columnsUpTo k rows row))
    (fun x xs js ⟨k, hrest, hdone⟩ => by
      have hx : (s.columns.zip row)[k]? = some x := by
        rw [← List.head?_drop, ← hrest]
        rfl
      obtain ⟨hd, hw⟩ := List.getElem?_zip_eq_some.1 hx
      obtain ⟨js', hok, hdone'⟩ := record_ok hdone hv ha hd hw
      refine ⟨js', hok, k + 1, ?_, hdone'⟩
      rw [← List.tail_drop, ← hrest]
      rfl)
    _ is ⟨0, rfl, hstart⟩
  have hle := List.drop_eq_nil_iff.1 hrest.symm
  rw [List.length_zip, hlen, Nat.min_self] at hle
  refine ⟨is', hok, hdone.congr fun j hj => ?_⟩
  unfold columnsUpTo
  rw [if_pos (Nat.lt_of_lt_of_le hj hle)]

end

/-- storing an admitted row is never refused half way -/
theorem append_ok (h : t.Stores c) {values : List Value}
    (ha : c.schema.Admits (c.rows ++ [values])) :
    ∃ u, t.append values = .ok () u ∧ u.Stores { c with rows := c.rows ++ [values] } := by
  have hfits : t.schema.Fits values := by
    rw [h.schema]
    exact ha.fits values (by simp)
  obtain ⟨cs, hcs, hlays⟩ := h.lays.pushAll hfits
  obtain ⟨is, his, hindexed⟩ := recordAll_ok h.indexed h.valid ha
  refine ⟨{ t with columns := cs, rowCount := t.rowCount + 1, indexes := is }, ?_,
    h.name, h.schema, h.valid, ha, hlays is, hindexed⟩
  unfold append
  rw [hcs, Outcome.within_ok, Outcome.andThen_ok, h.schema, h.lays.count]
  dsimp only
  rw [his, Outcome.within_ok]

/-- an insertion fails and changes nothing, or adds the accepted row as the last one -/
theorem insert_cases (h : t.Stores c) (pairs : List (String × Value)) :
    (∃ e, t.accept pairs = .error e ∧ t.insert pairs = .fail e t) ∨
      ∃ values u, t.accept pairs = .ok values ∧
        t.insert pairs = .ok ⟨c.schema.names, values⟩ u ∧
        u.Stores { c with rows := c.rows ++ [values] } := by
  unfold Table.insert
  cases ha : t.accept pairs with
  | error e => exact Or.inl ⟨e, rfl, rfl⟩
  | ok values =>
    obtain ⟨u, hu, hstores⟩ := append_ok h (accept_admits h ha)
    refine Or.inr ⟨values, u, rfl, ?_, hstores⟩
    dsimp only
    rw [hu, Outcome.map_ok, h.schema]

end

end Table

end TableStore
