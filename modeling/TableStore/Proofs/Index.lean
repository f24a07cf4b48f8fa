import Mathlib.Data.List.Dedup
import Mathlib.Data.List.Nodup
import Mathlib.Tactic.Tauto
import TableStore.Index
import TableStore.Proofs.Keyed

/-!
# An index as a set of values with positions

* `Index.Sound`      every value has one bucket, and no bucket is empty or out of order;
* `HeldElsewhere`, `add_cases`   a unique index refuses the values that another row holds;
* `Index.Tracks`     a sound index records exactly the positions of a list of values;
* `Tracks.find_eq`, `has_iff`, `size_eq`   what such an index answers;
* `Tracks.buckets_perm`                    and its buckets;
* `Tracks.add`, `move`, `rebuild_tracks`   what its changes do to the list, and when they are not
  refused;
* `Distinct`         no value but the empty one stands twice.
-/

namespace TableStore

/-! ## lists of values -/

/-- no value but the empty one stands twice -/
def Distinct (vs : List Value) : Prop := vs.Pairwise fun v w => v = w → v = .null

/-- the positions at which a value stands, ascending -/
def positionsOf (v : Value) (vs : List Value) : List Nat :=
  (List.range vs.length).filter fun pos => vs[pos]? = some v

theorem mem_positionsOf {v : Value} {vs : List Value} {pos : Nat} :
    pos ∈ positionsOf v vs ↔ vs[pos]? = some v := by
  unfold positionsOf
  rw [List.mem_filter, List.mem_range, decide_eq_true_iff]
  constructor
  · exact fun h => h.2
  · intro h
    exact ⟨(List.getElem?_eq_some_iff.1 h).1, h⟩

theorem positionsOf_ne_nil_iff {v : Value} {vs : List Value} :
    positionsOf v vs ≠ [] ↔ v ∈ vs := by
  rw [List.mem_iff_getElem?]
  constructor
  · intro hne
    obtain ⟨pos, hpos⟩ := List.exists_mem_of_ne_nil _ hne
    exact ⟨pos, mem_positionsOf.1 hpos⟩
  · rintro ⟨pos, hpos⟩
    exact List.ne_nil_of_mem (mem_positionsOf.2 hpos)

theorem positionsOf_ascending (v : Value) (vs : List Value) :
    (positionsOf v vs).Pairwise (· < ·) :=
  List.Pairwise.filter _ List.pairwise_lt_range

theorem distinct_append_singleton {vs : List Value} {v : Value} :
    Distinct (vs ++ [v]) ↔ Distinct vs ∧ (v ≠ .null → v ∉ vs) := by
  unfold Distinct
  rw [List.pairwise_append]
  constructor
  · rintro ⟨hvs, -, hv⟩
    refine ⟨hvs, fun hnull hmem => hnull ?_⟩
    exact hv v hmem v (List.mem_singleton_self v) rfl
  · rintro ⟨hvs, hv⟩
    refine ⟨hvs, List.pairwise_singleton _ _, fun w hw u hu he => ?_⟩
    obtain rfl := List.mem_singleton.1 hu
    by_contra hnull
    exact hv (he ▸ hnull) (he ▸ hw)

/-- two places of a list without repetition hold different values, or nothing -/
theorem distinct_iff {vs : List Value} :
    Distinct vs ↔
      ∀ (p q : Nat) (v : Value), p ≠ q → vs[p]? = some v → vs[q]? = some v → v = .null := by
  unfold Distinct
  rw [List.pairwise_iff_getElem]
  constructor
  · intro h p q v hpq hp hq
    obtain ⟨hlp, hvp⟩ := List.getElem?_eq_some_iff.1 hp
    obtain ⟨hlq, hvq⟩ := List.getElem?_eq_some_iff.1 hq
    rcases Nat.lt_or_gt_of_ne hpq with hlt | hlt
    · rw [← hvp]
      exact h p q hlp hlq hlt (hvp.trans hvq.symm)
    · rw [← hvq]
      exact h q p hlq hlp hlt (hvq.trans hvp.symm)
  · intro h p q hp hq hpq he
    refine h p q _ (Nat.ne_of_lt hpq) (List.getElem?_eq_getElem hp) ?_
    rw [he]
    exact List.getElem?_eq_getElem hq

/-! ## ascending lists -/

theorem mem_insertAscending {m n : Nat} {ms : List Nat} :
    m ∈ insertAscending n ms ↔ m = n ∨ m ∈ ms := by
  induction ms with
  | nil => exact List.mem_cons
  | cons k ks ih =>
    unfold insertAscending
    split
    · exact List.mem_cons
    · split
      · rename_i he
        rw [List.mem_cons, he]
        tauto
      · rw [List.mem_cons, ih, List.mem_cons]
        tauto

theorem insertAscending_ascending {n : Nat} {ms : List Nat} (h : ms.Pairwise (· < ·)) :
    (insertAscending n ms).Pairwise (· < ·) := by
  induction ms with
  | nil => exact List.pairwise_singleton _ _
  | cons k ks ih =>
    obtain ⟨hk, hks⟩ := List.pairwise_cons.1 h
    unfold insertAscending
    split
    · rename_i hn
      refine List.pairwise_cons.2 ⟨fun m hm => ?_, h⟩
      rcases List.mem_cons.1 hm with rfl | hm
      · exact hn
      · exact Nat.lt_trans hn (hk m hm)
    · split
      · exact h
      · refine List.pairwise_cons.2 ⟨fun m hm => ?_, ih hks⟩
        rcases mem_insertAscending.1 hm with rfl | hm
        · omega
        · exact hk m hm

/-- an ascending list is known by its members -/
theorem eq_of_ascending {ms ns : List Nat} (hm : ms.Pairwise (· < ·)) (hn : ns.Pairwise (· < ·))
    (h : ∀ n, n ∈ ms ↔ n ∈ ns) : ms = ns := by
  have hperm : ms.Perm ns :=
    (List.perm_ext_iff_of_nodup (hm.imp Nat.ne_of_lt) (hn.imp Nat.ne_of_lt)).2 h
  exact hperm.eq_of_pairwise (fun _ _ _ _ h₁ h₂ => absurd h₁ (Nat.lt_asymm h₂)) hm hn

namespace Index

/-! ## buckets -/

/-- the positions in the bucket of a value -/
def positionsIn (v : Value) (bs : List (Value × List Nat)) : List Nat := (bs.lookup v).getD []

theorem positionsIn_cons (v : Value) (b : Value × List Nat) (bs : List (Value × List Nat)) :
    positionsIn v (b :: bs) = if b.1 = v then b.2 else positionsIn v bs := by
  unfold positionsIn
  rw [List.lookup_cons]
  by_cases h : b.1 = v
  · rw [if_pos h, beq_iff_eq.2 h.symm]
    rfl
  · rw [if_neg h, beq_false_of_ne (Ne.symm h)]

theorem positionsIn_addTo (v w : Value) (pos : Nat) (bs : List (Value × List Nat)) :
    positionsIn w (addTo v pos bs)
      = if v = w then insertAscending pos (positionsIn w bs) else positionsIn w bs := by
  induction bs with
  | nil =>
    unfold addTo
    rw [positionsIn_cons]
    rfl
  | cons b bs ih =>
    unfold addTo
    by_cases hb : b.1 = v
    · rw [if_pos hb, positionsIn_cons, positionsIn_cons, hb]
      split <;> rfl
    · rw [if_neg hb, positionsIn_cons, positionsIn_cons, ih]
      by_cases hw : b.1 = w
      · rw [if_pos hw, if_pos hw, if_neg (fun he => hb (hw.trans he.symm))]
      · rw [if_neg hw, if_neg hw]

theorem mem_keys_addTo {v w : Value} {pos : Nat} {bs : List (Value × List Nat)} :
    w ∈ (addTo v pos bs).map (·.1) ↔ w = v ∨ w ∈ bs.map (·.1) := by
  induction bs with
  | nil => simp [addTo]
  | cons b bs ih =>
    unfold addTo
    by_cases hb : b.1 = v
    · rw [if_pos hb, List.map_cons, List.map_cons, List.mem_cons, List.mem_cons, hb]
      tauto
    · rw [if_neg hb, List.map_cons, List.map_cons, List.mem_cons, List.mem_cons, ih]
      tauto

theorem keys_removeFrom (v : Value) (pos : Nat) (bs : List (Value × List Nat)) :
    ((removeFrom v pos bs).map (·.1)).Sublist (bs.map (·.1)) := by
  induction bs with
  | nil => exact List.Sublist.slnil
  | cons b bs ih =>
    unfold removeFrom
    split
    · rename_i hb
      split
      · exact List.sublist_cons_self _ _
      · rw [List.map_cons, List.map_cons, hb]
    · exact ih.cons_cons b.1

/-- every value has one bucket, and no bucket is empty or out of order -/
structure Ordered (bs : List (Value × List Nat)) : Prop where
  keys : (bs.map (·.1)).Nodup
  filled : ∀ b ∈ bs, b.2 ≠ []
  ascending : ∀ b ∈ bs, b.2.Pairwise (· < ·)

theorem ordered_nil : Ordered [] := ⟨List.nodup_nil, by simp, by simp⟩

theorem ordered_cons {b : Value × List Nat} {bs : List (Value × List Nat)} :
    Ordered (b :: bs) ↔
      b.1 ∉ bs.map (·.1) ∧ b.2 ≠ [] ∧ b.2.Pairwise (· < ·) ∧ Ordered bs := by
  constructor
  · rintro ⟨hk, hf, ha⟩
    rw [List.map_cons, List.nodup_cons] at hk
    rw [List.forall_mem_cons] at hf ha
    exact ⟨hk.1, hf.1, ha.1, hk.2, hf.2, ha.2⟩
  · rintro ⟨hk, hf, ha, h⟩
    refine ⟨?_, List.forall_mem_cons.2 ⟨hf, h.filled⟩, List.forall_mem_cons.2 ⟨ha, h.ascending⟩⟩
    rw [List.map_cons, List.nodup_cons]
    exact ⟨hk, h.keys⟩

theorem Ordered.addTo {bs : List (Value × List Nat)} (h : Ordered bs) (v : Value) (pos : Nat) :
    Ordered (addTo v pos bs) := by
  induction bs with
  | nil => exact ordered_cons.2 ⟨by simp, by simp, List.pairwise_singleton _ _, h⟩
  | cons b bs ih =>
    obtain ⟨hk, hf, ha, hbs⟩ := ordered_cons.1 h
    unfold Index.addTo
    split
    · rename_i hb
      refine ordered_cons.2 ⟨hb ▸ hk, ?_, insertAscending_ascending ha, hbs⟩
      exact List.ne_nil_of_mem (mem_insertAscending.2 (Or.inl rfl))
    · rename_i hb
      refine ordered_cons.2 ⟨fun hm => ?_, hf, ha, ih hbs⟩
      rcases mem_keys_addTo.1 hm with he | hm
      · exact hb he
      · exact hk hm

theorem Ordered.removeFrom {bs : List (Value × List Nat)} (h : Ordered bs) (v : Value)
    (pos : Nat) : Ordered (removeFrom v pos bs) := by
  induction bs with
  | nil => exact h
  | cons b bs ih =>
    obtain ⟨hk, hf, ha, hbs⟩ := ordered_cons.1 h
    unfold Index.removeFrom
    split
    · rename_i hb
      split
      · exact hbs
      · rename_i ps hps
        refine ordered_cons.2 ⟨hb ▸ hk, hps, ?_, hbs⟩
        exact ha.filter _
    · exact ordered_cons.2 ⟨fun hm => hk ((keys_removeFrom v pos bs).subset hm), hf, ha, ih hbs⟩

theorem positionsIn_of_notMem {v : Value} {bs : List (Value × List Nat)}
    (h : v ∉ bs.map (·.1)) : positionsIn v bs = [] := by
  induction bs with
  | nil => rfl
  | cons b bs ih =>
    rw [List.map_cons, List.mem_cons, not_or] at h
    rw [positionsIn_cons, if_neg (Ne.symm h.1), ih h.2]

theorem positionsIn_removeFrom {bs : List (Value × List Nat)} (h : Ordered bs) (v w : Value)
    (pos : Nat) :
    positionsIn w (removeFrom v pos bs)
      = if v = w then (positionsIn w bs).filter (· ≠ pos) else positionsIn w bs := by
  induction bs with
  | nil => simp [removeFrom, positionsIn]
  | cons b bs ih =>
    obtain ⟨hk, -, -, hbs⟩ := ordered_cons.1 h
    unfold removeFrom
    by_cases hb : b.1 = v
    · rw [if_pos hb, positionsIn_cons]
      by_cases hw : v = w
      · -- the last position takes the bucket with it, and the value has no other one
        have hnone : positionsIn w bs = [] := positionsIn_of_notMem (hw ▸ hb ▸ hk)
        rw [if_pos (hb.trans hw), if_pos hw]
        cases hps : b.2.filter (· ≠ pos) with
        | nil => exact hnone
        | cons p ps => rw [positionsIn_cons, if_pos hw]
      · have hbw : ¬ b.1 = w := fun he => hw (hb.symm.trans he)
        rw [if_neg hbw, if_neg hw]
        split
        · rfl
        · rw [positionsIn_cons, if_neg hw]
    · rw [if_neg hb, positionsIn_cons, positionsIn_cons, ih hbs]
      by_cases hw : b.1 = w
      · rw [if_pos hw, if_pos hw, if_neg (fun he => hb (hw.trans he.symm))]
      · rw [if_neg hw, if_neg hw]

/-! ## the pairs that an index records -/

/-- an index whose buckets are in order -/
def Sound (i : Index) : Prop := Ordered i.buckets

theorem find_eq (i : Index) (v : Value) : i.find v = positionsIn v i.buckets := rfl

theorem mem_find_record {i : Index} {v w : Value} {pos p : Nat} :
    p ∈ (i.record v pos).find w ↔ (v = w ∧ p = pos) ∨ p ∈ i.find w := by
  rw [find_eq, find_eq, record, positionsIn_addTo]
  by_cases h : v = w
  · rw [if_pos h, mem_insertAscending]
    tauto
  · rw [if_neg h]
    tauto

theorem mem_find_remove {i : Index} (hi : i.Sound) {v w : Value} {pos p : Nat} :
    p ∈ (i.remove v pos).find w ↔ p ∈ i.find w ∧ ¬ (v = w ∧ p = pos) := by
  rw [find_eq, find_eq, remove, positionsIn_removeFrom hi]
  by_cases h : v = w
  · rw [if_pos h, List.mem_filter, decide_eq_true_iff]
    tauto
  · rw [if_neg h]
    tauto

/-- every value with every position of its bucket -/
def recorded (i : Index) : List (Value × Nat) :=
  i.buckets.flatMap fun b => b.2.map fun pos => (b.1, pos)

/-- the positions of all buckets, one bucket after the other -/
theorem recorded_map_snd (i : Index) : i.recorded.map (·.2) = i.buckets.flatMap (·.2) := by
  have hbucket (b : Value × List Nat) : (b.2.map fun pos => (b.1, pos)).map (·.2) = b.2 := by
    rw [List.map_map]
    exact List.map_id _
  unfold recorded
  rw [List.map_flatMap]
  exact List.flatMap_congr fun b _ => hbucket b

theorem length_recorded (i : Index) : i.recorded.length = i.size := by
  unfold recorded size
  induction i.buckets with
  | nil => rfl
  | cons b bs ih => simp [List.flatMap_cons, ih]

theorem mem_bucket_iff {bs : List (Value × List Nat)} (h : Ordered bs) {v : Value} {pos : Nat} :
    (∃ b ∈ bs, b.1 = v ∧ pos ∈ b.2) ↔ pos ∈ positionsIn v bs := by
  unfold positionsIn
  constructor
  · rintro ⟨b, hb, rfl, hpos⟩
    rw [Keyed.lookup_of_mem h.keys hb]
    exact hpos
  · intro hpos
    cases hl : bs.lookup v with
    | none =>
      rw [hl] at hpos
      cases hpos
    | some ps =>
      rw [hl] at hpos
      exact ⟨(v, ps), Keyed.mem_of_lookup hl, rfl, hpos⟩

/-- a bucket is what is found under its value -/
theorem mem_iff_positionsIn {bs : List (Value × List Nat)} (h : Ordered bs)
    {b : Value × List Nat} : b ∈ bs ↔ b.2 ≠ [] ∧ positionsIn b.1 bs = b.2 := by
  unfold positionsIn
  constructor
  · intro hb
    rw [Keyed.lookup_of_mem h.keys hb]
    exact ⟨h.filled b hb, rfl⟩
  · rintro ⟨hne, hfind⟩
    cases hl : bs.lookup b.1 with
    | none =>
      rw [hl] at hfind
      exact absurd hfind.symm hne
    | some ps =>
      rw [hl] at hfind
      obtain rfl : ps = b.2 := hfind
      exact Keyed.mem_of_lookup hl

theorem mem_recorded {i : Index} (hi : i.Sound) {e : Value × Nat} :
    e ∈ i.recorded ↔ e.2 ∈ i.find e.1 := by
  rw [find_eq, ← mem_bucket_iff hi, recorded, List.mem_flatMap]
  constructor
  · rintro ⟨b, hb, he⟩
    obtain ⟨pos, hpos, rfl⟩ := List.mem_map.1 he
    exact ⟨b, hb, rfl, hpos⟩
  · rintro ⟨b, hb, hv, hpos⟩
    exact ⟨b, hb, List.mem_map.2 ⟨e.2, hpos, Prod.ext hv rfl⟩⟩

theorem nodup_recorded {i : Index} (hi : i.Sound) : i.recorded.Nodup := by
  unfold recorded
  rw [List.nodup_flatMap]
  refine ⟨fun b hb => ?_, ?_⟩
  · have hnodup : b.2.Nodup := (hi.ascending b hb).imp Nat.ne_of_lt
    exact hnodup.map fun p q he => (Prod.mk.inj he).2
  · have hkeys : i.buckets.Pairwise fun b c => b.1 ≠ c.1 := List.pairwise_map.1 hi.keys
    refine hkeys.imp fun {b c} hne e hb hc => ?_
    obtain ⟨p, -, rfl⟩ := List.mem_map.1 hb
    obtain ⟨q, -, he⟩ := List.mem_map.1 hc
    exact hne (Prod.mk.inj he).1.symm

theorem find_ascending {i : Index} (hi : i.Sound) (v : Value) : (i.find v).Pairwise (· < ·) := by
  rw [find_eq]
  unfold positionsIn
  cases h : i.buckets.lookup v with
  | none => exact List.Pairwise.nil
  | some ps => exact hi.ascending (v, ps) (Keyed.mem_of_lookup h)

theorem has_iff_find {i : Index} (hi : i.Sound) {v : Value} :
    i.has v = true ↔ i.find v ≠ [] := by
  unfold has find
  cases h : i.buckets.lookup v with
  | none => simp
  | some ps =>
    have hne : ps ≠ [] := hi.filled (v, ps) (Keyed.mem_of_lookup h)
    simp [hne]

/-! ## what a unique index refuses -/

/-- another row than the one at the position holds the value, which is not empty -/
def HeldElsewhere (i : Index) (v : Value) (pos : Nat) : Prop :=
  v ≠ .null ∧ ∃ p ∈ i.find v, p ≠ pos

instance (i : Index) (v : Value) (pos : Nat) : Decidable (i.HeldElsewhere v pos) := by
  unfold HeldElsewhere; infer_instance

/-- forgetting a position says nothing about other rows -/
theorem heldElsewhere_remove_iff {i : Index} (hi : i.Sound) {v w : Value} {pos : Nat} :
    (i.remove w pos).HeldElsewhere v pos ↔ i.HeldElsewhere v pos := by
  unfold HeldElsewhere
  simp only [mem_find_remove hi]
  constructor
  · rintro ⟨hv, p, ⟨hp, -⟩, hne⟩
    exact ⟨hv, p, hp, hne⟩
  · rintro ⟨hv, p, hp, hne⟩
    exact ⟨hv, p, ⟨hp, fun he => hne he.2⟩, hne⟩

/-- a unique index refuses the values that another row holds; nothing else is refused -/
theorem add_cases (i : Index) (v : Value) (pos : Nat) :
    ((i.isUnique = true ∧ i.HeldElsewhere v pos) ∧ i.add v pos = .error (i.duplicate v)) ∨
      (¬ (i.isUnique = true ∧ i.HeldElsewhere v pos) ∧ i.add v pos = .ok (i.record v pos)) := by
  have hguard : (i.isUnique && !v.isNull && (i.find v).any (· ≠ pos)) = true
      ↔ i.isUnique = true ∧ i.HeldElsewhere v pos := by
    unfold HeldElsewhere
    rw [Bool.and_eq_true, Bool.and_eq_true, and_assoc, Bool.not_eq_true', ← Bool.not_eq_true,
      Value.isNull_iff, List.any_eq_true]
    simp only [decide_eq_true_iff]
  unfold Index.add
  by_cases h : i.isUnique = true ∧ i.HeldElsewhere v pos
  · exact Or.inl ⟨h, if_pos (hguard.2 h)⟩
  · exact Or.inr ⟨h, if_neg fun he => h (hguard.1 he)⟩

/-- values are added one by one, up to the first that is refused -/
theorem addAll_cons (i : Index) (pos : Nat) (v : Value) (vs : List Value) :
    i.addAll pos (v :: vs)
      = (Outcome.ofExcept (i.add v pos) i).andThen fun _ j => j.addAll (pos + 1) vs := by
  rw [Index.addAll]
  cases i.add v pos <;> rfl

/-! ## an index of a list of values -/

/-- an index that records the positions of these values, and nothing else -/
structure Tracks (i : Index) (vs : List Value) : Prop where
  sound : i.Sound
  mem : ∀ v pos, pos ∈ i.find v ↔ vs[pos]? = some v

theorem tracks_clear (i : Index) : i.clear.Tracks [] :=
  ⟨ordered_nil, fun v pos => by simp [find, clear]⟩

section
variable {i : Index} {vs : List Value}

namespace Tracks

/-- the positions of a value are found, in order -/
theorem find_eq (h : i.Tracks vs) (v : Value) : i.find v = positionsOf v vs :=
  eq_of_ascending (find_ascending h.sound v) (positionsOf_ascending v vs) fun pos => by
    rw [h.mem, mem_positionsOf]

theorem has_iff (h : i.Tracks vs) {v : Value} : i.has v = true ↔ v ∈ vs := by
  rw [has_iff_find h.sound, h.find_eq, positionsOf_ne_nil_iff]

/-- each value has a bucket, with all its positions -/
theorem mem_buckets_iff (h : i.Tracks vs) {b : Value × List Nat} :
    b ∈ i.buckets ↔ b.1 ∈ vs ∧ b.2 = positionsOf b.1 vs := by
  rw [mem_iff_positionsIn h.sound, ← Index.find_eq, h.find_eq, ← positionsOf_ne_nil_iff,
    eq_comm (a := b.2)]
  refine and_congr_left fun hb => ?_
  rw [hb]

/-- the buckets are told by the values, if not their order -/
theorem buckets_perm (h : i.Tracks vs) :
    i.buckets.Perm (vs.dedup.map fun v => (v, positionsOf v vs)) := by
  have hnodup : (vs.dedup.map fun v => (v, positionsOf v vs)).Nodup :=
    vs.nodup_dedup.map fun v w he => (Prod.mk.inj he).1
  refine (List.perm_ext_iff_of_nodup h.sound.keys.of_map hnodup).2 fun b => ?_
  rw [h.mem_buckets_iff, List.mem_map]
  simp only [List.mem_dedup]
  constructor
  · intro ⟨hmem, hb⟩
    exact ⟨b.1, hmem, Prod.ext rfl hb.symm⟩
  · intro ⟨w, hw, hb⟩
    rw [← hb]
    exact ⟨hw, rfl⟩

/-- indexes of the same values have the same buckets, if in another order -/
theorem perm {i' : Index} (h : i.Tracks vs) (h' : i'.Tracks vs) :
    i.buckets.Perm i'.buckets :=
  h.buckets_perm.trans h'.buckets_perm.symm

/-- an index records each value with its position, and nothing twice -/
theorem recorded_perm (h : i.Tracks vs) : i.recorded.Perm vs.zipIdx := by
  have hnodup : vs.zipIdx.Nodup := by
    refine List.Nodup.of_map Prod.snd ?_
    rw [List.zipIdx_map_snd]
    exact List.nodup_range'
  refine (List.perm_ext_iff_of_nodup (nodup_recorded h.sound) hnodup).2 fun e => ?_
  rw [mem_recorded h.sound, h.mem, List.mem_zipIdx_iff_getElem?]

/-- an index has as many positions as there are values -/
theorem size_eq (h : i.Tracks vs) : i.size = vs.length := by
  rw [← length_recorded, h.recorded_perm.length_eq, List.length_zipIdx]

/-- the buckets share the positions out: each one stands in one of them, once -/
theorem flatMap_perm (h : i.Tracks vs) :
    (i.buckets.flatMap (·.2)).Perm (List.range vs.length) := by
  have hperm := h.recorded_perm.map (·.2)
  rw [recorded_map_snd] at hperm
  rw [List.range_eq_range', ← List.zipIdx_map_snd 0 vs]
  exact hperm

/-- a value may be added as the last one, unless the index is unique and holds it already -/
theorem add (h : i.Tracks vs) {v : Value} (hv : i.isUnique = true → v ≠ .null → v ∉ vs) :
    ∃ i', i.add v vs.length = .ok i' ∧ i'.clear = i.clear ∧ i'.Tracks (vs ++ [v]) := by
  rcases add_cases i v vs.length with ⟨⟨hu, hnull, p, hp, -⟩, -⟩ | ⟨-, hadd⟩
  · exact absurd (List.mem_of_getElem? ((h.mem v p).1 hp)) (hv hu hnull)
  · refine ⟨i.record v vs.length, hadd, rfl, h.sound.addTo v vs.length, fun w pos => ?_⟩
    rw [mem_find_record, h.mem, List.getElem?_append]
    by_cases hpos : pos < vs.length
    · rw [if_pos hpos]
      constructor
      · rintro (⟨-, rfl⟩ | hw)
        · exact absurd hpos (Nat.lt_irrefl _)
        · exact hw
      · exact Or.inr
    · rw [if_neg hpos, List.getElem?_eq_none (Nat.le_of_not_lt hpos), List.getElem?_singleton]
      by_cases he : pos = vs.length
      · simp [he]
      · have hsub : pos - vs.length ≠ 0 := by omega
        simp [he, hsub]

/-- a unique index refuses a value that it holds already -/
theorem add_eq_error (h : i.Tracks vs) {v : Value} (hu : i.isUnique = true)
    (hv : v ≠ .null ∧ v ∈ vs) : i.add v vs.length = .error (i.duplicate v) := by
  obtain ⟨p, hp⟩ := List.mem_iff_getElem?.1 hv.2
  have hlt : p < vs.length := (List.getElem?_eq_some_iff.1 hp).1
  have hheld : i.HeldElsewhere v vs.length := ⟨hv.1, p, (h.mem v p).2 hp, by omega⟩
  obtain ⟨-, hadd⟩ | ⟨hfree, -⟩ := add_cases i v vs.length
  · exact hadd
  · exact absurd ⟨hu, hheld⟩ hfree

/-- the value of a row may be changed to one that no other row holds, or to any if the index is not
unique -/
theorem move (h : i.Tracks vs) {old new : Value} {pos : Nat} (hold : vs[pos]? = some old)
    (hnew : i.isUnique = true → new ≠ .null → ∀ p, p ≠ pos → vs[p]? ≠ some new) :
    ∃ i', i.move old new pos = .ok () i' ∧ i'.clear = i.clear ∧ i'.Tracks (vs.set pos new) := by
  have hpos : pos < vs.length := (List.getElem?_eq_some_iff.1 hold).1
  unfold Index.move
  by_cases he : old = new
  · refine ⟨i, if_pos he, rfl, ?_⟩
    have hsame : vs.set pos new = vs := by
      rw [← he]
      obtain ⟨_, rfl⟩ := List.getElem?_eq_some_iff.1 hold
      exact List.set_getElem_self _
    rw [hsame]
    exact h
  · rw [if_neg he]
    have hadd : (i.remove old pos).add new pos = .ok ((i.remove old pos).record new pos) := by
      rcases add_cases (i.remove old pos) new pos with ⟨⟨hu, hnull, p, hp, hne⟩, -⟩ | ⟨-, hadd⟩
      · rw [mem_find_remove h.sound, h.mem] at hp
        exact absurd hp.1 (hnew hu hnull p hne)
      · exact hadd
    refine ⟨(i.remove old pos).record new pos, ?_, rfl,
      (h.sound.removeFrom old pos).addTo new pos, fun w p => ?_⟩
    · simp only [hadd]
    · rw [mem_find_record, mem_find_remove h.sound, h.mem]
      by_cases hp : pos = p
      · subst hp
        rw [List.getElem?_set_self hpos, hold]
        simp
      · rw [List.getElem?_set_ne hp]
        have hp' : ¬ p = pos := Ne.symm hp
        simp [hp']

theorem addAll (h : i.Tracks vs) (ws : List Value)
    (hd : i.isUnique = true → Distinct (vs ++ ws)) :
    ∃ i', i.addAll vs.length ws = .ok () i' ∧ i'.clear = i.clear ∧ i'.Tracks (vs ++ ws) := by
  induction ws generalizing i vs with
  | nil => exact ⟨i, rfl, rfl, by rwa [List.append_nil]⟩
  | cons w ws ih =>
    have hw (hu : i.isUnique = true) : Distinct (vs ++ [w]) := by
      have hall := hd hu
      rw [List.append_cons] at hall
      exact (List.pairwise_append.1 hall).1
    obtain ⟨j, hj, hclear, htracks⟩ := h.add fun hu => (distinct_append_singleton.1 (hw hu)).2
    have hunique : j.isUnique = i.isUnique := congrArg (·.isUnique) hclear
    obtain ⟨k, hk, hclear', htracks'⟩ := ih htracks fun hu => by
      rw [← List.append_cons]
      exact hd (hunique ▸ hu)
    refine ⟨k, ?_, hclear'.trans hclear, by rwa [List.append_cons]⟩
    rw [addAll_cons, hj]
    rw [List.length_append] at hk
    exact hk

end Tracks

/-- an index can be rebuilt from values of which it admits each, whatever it recorded before -/
theorem rebuild_tracks (i : Index) (vs : List Value) (hd : i.isUnique = true → Distinct vs) :
    ∃ i', i.rebuild vs = .ok () i' ∧ i'.clear = i.clear ∧ i'.Tracks vs :=
  (tracks_clear i).addAll vs hd

end

end Index

end TableStore
