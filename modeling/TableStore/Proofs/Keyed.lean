import Mathlib.Data.List.Nodup
import TableStore.Keyed

/-!
# Lists of entries under keys

* `exists_forall₂_iff`    a list goes in step with another if each element has a counterpart;
* `lookup_eq_some_iff`    where no key stands twice, an entry is found under its key;
* `lookup_rel`            entries with the same keys and related values are found together;
* `Ascending`             keys in order, none twice;
* `ascending_ofList`      sorting gives such a list;
* `ofList_of_ascending`   and leaves such a list as it is;
* `lookup_zip`            under a name stands the value at its place;
* `mem_ofList`            where no key stands twice, sorting keeps every entry;
* `ofList_perm`           the order in which entries came does not show once they are sorted.
-/

namespace TableStore.Keyed

/-! ## lists in step -/

/-- what stands in one of two lists in step has its counterpart in the other -/
theorem exists_of_mem_forall₂ {α β : Type} {R : α → β → Prop} {as : List α} {bs : List β}
    (h : List.Forall₂ R as bs) {b : β} (hb : b ∈ bs) : ∃ a ∈ as, R a b := by
  induction h with
  | nil => cases hb
  | cons hab _ ih =>
    rcases List.mem_cons.1 hb with rfl | hb
    · exact ⟨_, List.mem_cons_self, hab⟩
    · obtain ⟨a, ha, hr⟩ := ih hb
      exact ⟨a, List.mem_cons_of_mem _ ha, hr⟩

/-- a list goes in step with another if each of its elements has a counterpart -/
theorem exists_forall₂_iff {α β : Type} {R : α → β → Prop} {as : List α} :
    (∃ bs, List.Forall₂ R as bs) ↔ ∀ a ∈ as, ∃ b, R a b := by
  induction as with
  | nil => exact ⟨fun _ => List.forall_mem_nil _, fun _ => ⟨[], .nil⟩⟩
  | cons a as ih =>
    rw [List.forall_mem_cons, ← ih]
    constructor
    · rintro ⟨_, h⟩
      obtain ⟨b, bs, hb, hbs, -⟩ := List.forall₂_cons_left_iff.1 h
      exact ⟨⟨b, hb⟩, bs, hbs⟩
    · rintro ⟨⟨b, hb⟩, bs, hbs⟩
      exact ⟨b :: bs, .cons hb hbs⟩

/-- what counterparts have in common, the lists have in common -/
theorem map_eq_of_forall₂ {α β γ : Type} {R : α → β → Prop} {f : α → γ} {g : β → γ}
    (hR : ∀ a b, R a b → g b = f a) {as : List α} {bs : List β} (h : List.Forall₂ R as bs) :
    bs.map g = as.map f := by
  induction h with
  | nil => rfl
  | cons hab _ ih => rw [List.map_cons, List.map_cons, hR _ _ hab, ih]

theorem keys_eq_of_forall₂ {κ α β : Type} {es : List (κ × α)} {fs : List (κ × β)}
    (h : List.Forall₂ (fun e f => f.1 = e.1) es fs) : fs.map (·.1) = es.map (·.1) :=
  map_eq_of_forall₂ (fun _ _ he => he) h

theorem keys_zip {κ α : Type} {names : List κ} {values : List α} (hn : names.Nodup)
    (hlen : names.length = values.length) : ((names.zip values).map (·.1)).Nodup := by
  rw [List.map_fst_zip (Nat.le_of_eq hlen)]
  exact hn

/-! ## looking up -/

section
variable {κ α : Type} [DecidableEq κ]

theorem lookup_cons (e : κ × α) (es : List (κ × α)) (k : κ) :
    (e :: es).lookup k = if k = e.1 then some e.2 else es.lookup k := by
  rw [List.lookup_cons]
  by_cases h : k = e.1
  · rw [if_pos h, h, beq_self_eq_true]
  · rw [if_neg h, beq_false_of_ne h]

theorem mem_of_lookup {es : List (κ × α)} {k : κ} {v : α} (h : es.lookup k = some v) :
    (k, v) ∈ es := by
  obtain ⟨before, after, rfl, -⟩ := List.lookup_eq_some_iff.1 h
  exact List.mem_append_right before List.mem_cons_self

theorem lookup_of_mem {es : List (κ × α)} (hk : (es.map (·.1)).Nodup) {k : κ} {v : α}
    (h : (k, v) ∈ es) : es.lookup k = some v := by
  induction es with
  | nil => cases h
  | cons e es ih =>
    rw [List.map_cons, List.nodup_cons] at hk
    rw [lookup_cons]
    rcases List.mem_cons.1 h with rfl | h
    · exact if_pos rfl
    · have hne : k ≠ e.1 := by
        rintro rfl
        exact hk.1 (List.mem_map.2 ⟨_, h, rfl⟩)
      rw [if_neg hne]
      exact ih hk.2 h

theorem lookup_eq_some_iff {es : List (κ × α)} (hk : (es.map (·.1)).Nodup) {k : κ} {v : α} :
    es.lookup k = some v ↔ (k, v) ∈ es :=
  ⟨mem_of_lookup, lookup_of_mem hk⟩

theorem lookup_perm {es fs : List (κ × α)} (hp : es.Perm fs) (hk : (es.map (·.1)).Nodup) (k : κ) :
    es.lookup k = fs.lookup k := by
  have hk' : (fs.map (·.1)).Nodup := (hp.map (·.1)).nodup_iff.1 hk
  apply Option.ext
  intro v
  rw [lookup_eq_some_iff hk, lookup_eq_some_iff hk', hp.mem_iff]

/-- under a name stands the value at its place -/
theorem lookup_zip {names : List κ} {values : List α} (hn : names.Nodup)
    (hlen : names.length = values.length) {i : Nat} {k : κ} {v : α} (hk : names[i]? = some k)
    (hv : values[i]? = some v) : (names.zip values).lookup k = some v :=
  lookup_of_mem (keys_zip hn hlen) (List.mem_of_getElem? (List.getElem?_zip_eq_some.2 ⟨hk, hv⟩))

/-- without the entries of one name, the others are found as before -/
theorem lookup_filter_ne (es : List (κ × α)) (name k : κ) :
    (es.filter (·.1 ≠ name)).lookup k = if k = name then none else es.lookup k := by
  induction es with
  | nil => exact (ite_self none).symm
  | cons e es ih =>
    rw [List.filter_cons, lookup_cons]
    by_cases he : e.1 = name
    · rw [if_neg (by simp [he]), ih, he]
      by_cases hk : k = name
      · rw [if_pos hk, if_pos hk]
      · rw [if_neg hk, if_neg hk, if_neg hk]
    · rw [if_pos (by simp [he]), lookup_cons, ih]
      by_cases hke : k = e.1
      · rw [if_pos hke, if_pos hke, if_neg (hke ▸ he)]
      · rw [if_neg hke, if_neg hke]

/-- among entries made from a list, the first one with the key -/
theorem lookup_map {β : Type} (key : β → κ) (value : β → α) (xs : List β) (k : κ) :
    (xs.map fun x => (key x, value x)).lookup k = (xs.find? (key · = k)).map value := by
  induction xs with
  | nil => rfl
  | cons x xs ih =>
    rw [List.map_cons, lookup_cons, List.find?_cons]
    by_cases h : key x = k
    · rw [if_pos h.symm, decide_eq_true h]
      rfl
    · rw [if_neg (Ne.symm h), decide_eq_false h]
      exact ih

theorem lookup_map_snd {β : Type} (f : α → β) (es : List (κ × α)) (k : κ) :
    (es.map fun e => (e.1, f e.2)).lookup k = (es.lookup k).map f := by
  induction es with
  | nil => rfl
  | cons e es ih =>
    rw [List.map_cons, lookup_cons, lookup_cons, ih]
    by_cases h : k = e.1
    · rw [if_pos h, if_pos h]
      rfl
    · rw [if_neg h, if_neg h]

/-- entries with the same keys and related values are found together -/
theorem lookup_rel {β : Type} {R : α → β → Prop} {es : List (κ × α)} {fs : List (κ × β)}
    (h : List.Forall₂ (fun e f => f.1 = e.1 ∧ R e.2 f.2) es fs) (k : κ) :
    Option.Rel R (es.lookup k) (fs.lookup k) := by
  induction h with
  | nil => exact .none
  | @cons e f es fs hef _ ih =>
    obtain ⟨hkey, hvalue⟩ := hef
    rw [lookup_cons, lookup_cons, hkey]
    by_cases h : k = e.1
    · rw [if_pos h, if_pos h]
      exact .some hvalue
    · rw [if_neg h, if_neg h]
      exact ih

end

/-! ## sorting -/

section
variable {α : Type} {es : List (String × α)}

/-- keys in order, none twice -/
def Ascending (es : List (String × α)) : Prop := es.Pairwise fun e f => e.1 < f.1

theorem ascending_iff : Ascending es ↔ (es.map (·.1)).Pairwise (· < ·) := List.pairwise_map.symm

theorem Ascending.nodup (h : Ascending es) : (es.map (·.1)).Nodup := by
  refine (ascending_iff.1 h).imp fun {a b} hlt he => ?_
  rw [he] at hlt
  exact String.lt_irrefl _ hlt

theorem mem_of_mem_add {k : String} {v : α} {e : String × α} (h : e ∈ add k v es) :
    e = (k, v) ∨ e ∈ es := by
  induction es with
  | nil => exact Or.inl (List.mem_singleton.1 h)
  | cons f fs ih =>
    unfold add at h
    split at h
    · exact List.mem_cons.1 h
    · split at h
      · exact Or.inr h
      · rcases List.mem_cons.1 h with rfl | h
        · exact Or.inr List.mem_cons_self
        · exact (ih h).imp_right (List.mem_cons_of_mem f)

theorem mem_of_mem_ofList {e : String × α} (h : e ∈ ofList es) : e ∈ es := by
  induction es with
  | nil => exact h
  | cons f fs ih =>
    rcases mem_of_mem_add h with rfl | h
    · exact List.mem_cons_self
    · exact List.mem_cons_of_mem f (ih h)

theorem ascending_add (h : Ascending es) (k : String) (v : α) : Ascending (add k v es) := by
  induction es with
  | nil => exact List.pairwise_singleton _ _
  | cons f fs ih =>
    obtain ⟨hf, hfs⟩ := List.pairwise_cons.1 h
    unfold add
    split
    case isTrue hlt =>
      refine List.pairwise_cons.2 ⟨fun g hg => ?_, h⟩
      rcases List.mem_cons.1 hg with rfl | hg
      · exact hlt
      · exact String.lt_trans hlt (hf g hg)
    case isFalse hlt =>
      split
      case isTrue => exact h
      case isFalse hne =>
        have hgt : f.1 < k := by
          by_contra hle
          exact hne (String.le_antisymm (String.not_lt.1 hle) (String.not_lt.1 hlt))
        refine List.pairwise_cons.2 ⟨fun g hg => ?_, ih hfs⟩
        rcases mem_of_mem_add hg with rfl | hg
        · exact hgt
        · exact hf g hg

/-- sorted entries have their keys in order, none twice -/
theorem ascending_ofList (es : List (String × α)) : Ascending (ofList es) := by
  induction es with
  | nil => exact List.Pairwise.nil
  | cons e es ih => exact ascending_add ih e.1 e.2

/-- entries in order are sorted -/
theorem ofList_of_ascending (h : Ascending es) : ofList es = es := by
  induction es with
  | nil => rfl
  | cons e es ih =>
    obtain ⟨he, hes⟩ := List.pairwise_cons.1 h
    show add e.1 e.2 (ofList es) = e :: es
    rw [ih hes]
    cases es with
    | nil => rfl
    | cons f fs =>
      unfold add
      rw [if_pos (he f List.mem_cons_self)]

theorem mem_add {k : String} {v : α} (hk : k ∉ es.map (·.1)) {e : String × α} :
    e ∈ add k v es ↔ e = (k, v) ∨ e ∈ es := by
  refine ⟨mem_of_mem_add, fun h => ?_⟩
  induction es with
  | nil => exact List.mem_singleton.2 (h.resolve_right List.not_mem_nil)
  | cons f fs ih =>
    rw [List.map_cons, List.mem_cons, not_or] at hk
    unfold add
    split
    · exact List.mem_cons.2 h
    · rw [if_neg hk.1]
      rcases h with rfl | h
      · exact List.mem_cons_of_mem f (ih hk.2 (Or.inl rfl))
      · rcases List.mem_cons.1 h with rfl | h
        · exact List.mem_cons_self
        · exact List.mem_cons_of_mem f (ih hk.2 (Or.inr h))

/-- where no key stands twice, sorting keeps every entry -/
theorem mem_ofList (hk : (es.map (·.1)).Nodup) {e : String × α} : e ∈ ofList es ↔ e ∈ es := by
  refine ⟨mem_of_mem_ofList, fun h => ?_⟩
  induction es with
  | nil => exact h
  | cons f fs ih =>
    rw [List.map_cons, List.nodup_cons] at hk
    have hnew : f.1 ∉ (ofList fs).map (·.1) := fun hmem => by
      obtain ⟨g, hg, hname⟩ := List.mem_map.1 hmem
      exact hk.1 (List.mem_map.2 ⟨g, mem_of_mem_ofList hg, hname⟩)
    refine (mem_add hnew).2 ?_
    rcases List.mem_cons.1 h with rfl | h
    · exact Or.inl rfl
    · exact Or.inr (ih hk.2 h)

theorem perm_ofList (hk : (es.map (·.1)).Nodup) : (ofList es).Perm es :=
  (List.perm_ext_iff_of_nodup (ascending_ofList es).nodup.of_map hk.of_map).2 fun _ =>
    mem_ofList hk

theorem lookup_ofList (hk : (es.map (·.1)).Nodup) (k : String) :
    (ofList es).lookup k = es.lookup k :=
  lookup_perm (perm_ofList hk) (ascending_ofList es).nodup k

/-- lists in order with the same entries are the same -/
theorem Ascending.eq_of_lookup {fs : List (String × α)} (h : Ascending es) (h' : Ascending fs)
    (hsame : ∀ k, es.lookup k = fs.lookup k) : es = fs := by
  have hperm : es.Perm fs := by
    apply (List.perm_ext_iff_of_nodup h.nodup.of_map h'.nodup.of_map).2
    intro e
    rw [← lookup_eq_some_iff h.nodup, ← lookup_eq_some_iff h'.nodup, hsame]
  apply hperm.eq_of_pairwise _ h h'
  intro e f _ _ hef hfe
  exact absurd (String.lt_trans hef hfe) (String.lt_irrefl _)

/-- the order in which entries came does not show once they are sorted -/
theorem ofList_perm {fs : List (String × α)} (hp : es.Perm fs) (hk : (es.map (·.1)).Nodup) :
    ofList es = ofList fs := by
  apply (ascending_ofList es).eq_of_lookup (ascending_ofList fs)
  intro k
  rw [lookup_ofList hk, lookup_ofList ((hp.map (·.1)).nodup_iff.1 hk), lookup_perm hp hk]

/-- sorted lists show the same under `f` and `g` if every key does -/
theorem map_ofList_congr {β γ : Type} {fs : List (String × β)} (hk : (es.map (·.1)).Nodup)
    (hk' : (fs.map (·.1)).Nodup) (f : α → γ) (g : β → γ)
    (hsame : ∀ k, (es.lookup k).map f = (fs.lookup k).map g) :
    (ofList es).map (fun e => (e.1, f e.2)) = (ofList fs).map fun e => (e.1, g e.2) := by
  apply Ascending.eq_of_lookup
  · exact List.pairwise_map.2 (ascending_ofList es)
  · exact List.pairwise_map.2 (ascending_ofList fs)
  · intro k
    rw [lookup_map_snd, lookup_map_snd, lookup_ofList hk, lookup_ofList hk', hsame]

end

end TableStore.Keyed
