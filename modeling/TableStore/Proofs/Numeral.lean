import Mathlib.Data.Nat.Digits.Defs
import TableStore.Proofs.Text.Blank
import TableStore.Numeral

/-!
# What a numeral means

* `Numeral.value ds`       the digits, each by its value and the power of ten of its place;
* `Numeral.Writes cs n`    the characters are a sign or none and a run of digits, and mean `n`;
* `word?_eq_some_iff`      a word holds an integer exactly, or not at all;
* `read?_eq_some_iff`      so a numeral is read as the integer that it means, or refused;
* `read?_trim_eq_some_iff`, `read?_trim_eq_none_iff`
                           with blanks around it too, and it is refused past 64 signed bits only.
-/

namespace TableStore.Numeral

/-- digits, at least one -/
def IsRun (ds : List Char) : Prop := ds ≠ [] ∧ ∀ d ∈ ds, d.isDigit = true

theorem isRun_iff_all {ds : List Char} : IsRun ds ↔ ds ≠ [] ∧ ds.all Char.isDigit = true := by
  unfold IsRun
  rw [List.all_eq_true]

instance (ds : List Char) : Decidable (IsRun ds) := decidable_of_iff _ isRun_iff_all.symm

/-- the number that digits stand for, the last one in the place of the units -/
def value (ds : List Char) : Nat := Nat.ofDigits 10 (ds.map fun d => d.toNat - '0'.toNat).reverse

/-- a sign or none, and a run of digits; the integer that they mean -/
inductive Writes : List Char → Int → Prop where
  | unsigned {ds : List Char} (h : IsRun ds) : Writes ds (value ds)
  | plus {ds : List Char} (h : IsRun ds) : Writes ('+' :: ds) (value ds)
  | minus {ds : List Char} (h : IsRun ds) : Writes ('-' :: ds) (-value ds)

/-- the characters are a numeral that means the integer, with blanks before and after it or none -/
def Stands (cs : List Char) (n : Int) : Prop :=
  ∃ before numeral after, cs = before ++ numeral ++ after ∧
    (∀ c ∈ before, Text.isBlank c = true) ∧ (∀ c ∈ after, Text.isBlank c = true) ∧
    Writes numeral n

/-! ## runs of digits -/

/-- taking the digits up one by one, each time by ten, gives each the power of its place -/
theorem ofDigits_eq_value (ds : List Char) : ofDigits ds = value ds := by
  unfold ofDigits
  induction ds with
  | nil => rfl
  | cons d ds ih =>
    unfold value at ih ⊢
    rw [Nat.ofDigitChars_cons, Nat.ofDigitChars_eq_ofDigitChars_zero, ih, List.map_cons,
      Nat.ofDigits_reverse_cons, List.length_map, Nat.mul_zero, Nat.zero_add, Nat.add_comm]

theorem natural?_eq_some_iff {ds : List Char} {n : Nat} :
    natural? ds = some n ↔ IsRun ds ∧ value ds = n := by
  unfold natural?
  by_cases h : IsRun ds
  · rw [if_pos (isRun_iff_all.1 h), ofDigits_eq_value, Option.some_inj]
    exact (and_iff_right h).symm
  · rw [if_neg fun hd => h (isRun_iff_all.2 hd)]
    exact iff_of_false (by simp) fun hd => h hd.1

theorem IsRun.isBlank {ds : List Char} (h : IsRun ds) : ∀ d ∈ ds, Text.isBlank d = false :=
  fun d hd => Text.isBlank_of_isDigit (h.2 d hd)

/-! ## words -/

/-- a word holds the integer that it stands for, and no other -/
theorem word?_eq_some_iff {n : Int} {w : Int64} : word? n = some w ↔ w.toInt = n := by
  constructor
  · exact toInt_of_word?
  · rintro rfl
    exact word?_toInt w

theorem word?_eq_none_iff {n : Int} : word? n = none ↔ n < -2 ^ 63 ∨ 2 ^ 63 - 1 < n := by
  have hmin : Int64.minValue.toInt = -2 ^ 63 := by decide
  have hmax : Int64.maxValue.toInt = 2 ^ 63 - 1 := by decide
  unfold word?
  rw [hmin, hmax]
  split
  · rename_i h
    exact iff_of_false (by simp) (by omega)
  · rename_i h
    exact iff_of_true rfl (by omega)

/-! ## numerals -/

theorem read?_eq_some_iff {cs : List Char} {w : Int64} :
    read? cs = some w ↔ Writes cs w.toInt := by
  have hword {ds : List Char} {f : Nat → Int} :
      ((natural? ds).bind fun n => word? (f n)) = some w ↔ IsRun ds ∧ f (value ds) = w.toInt := by
    rw [Option.bind_eq_some_iff]
    simp only [natural?_eq_some_iff, word?_eq_some_iff]
    constructor
    · rintro ⟨n, ⟨hds, rfl⟩, hw⟩
      exact ⟨hds, hw.symm⟩
    · rintro ⟨hds, hw⟩
      exact ⟨_, ⟨hds, rfl⟩, hw.symm⟩
  constructor
  · intro h
    unfold read? at h
    split at h
    · obtain ⟨hds, hw⟩ := hword.1 h
      rw [← hw]
      exact .plus hds
    · obtain ⟨hds, hw⟩ := hword.1 h
      rw [← hw]
      exact .minus hds
    · obtain ⟨hds, hw⟩ := hword.1 h
      rw [← hw]
      exact .unsigned hds
  · generalize hn : w.toInt = n
    intro h
    cases h with
    | unsigned hds =>
      -- digits begin with no sign
      unfold read?
      split
      · exact absurd (hds.2 '+' List.mem_cons_self) (by decide)
      · exact absurd (hds.2 '-' List.mem_cons_self) (by decide)
      · exact hword.2 ⟨hds, hn.symm⟩
    | plus hds => exact hword.2 ⟨hds, hn.symm⟩
    | minus hds => exact hword.2 ⟨hds, hn.symm⟩

theorem Writes.isBlank {cs : List Char} {n : Int} (h : Writes cs n) :
    ∀ c ∈ cs, Text.isBlank c = false := by
  cases h with
  | unsigned hds => exact hds.isBlank
  | plus hds => exact List.forall_mem_cons.2 ⟨by decide, hds.isBlank⟩
  | minus hds => exact List.forall_mem_cons.2 ⟨by decide, hds.isBlank⟩

/-! ## numerals between blanks -/

theorem read?_trim_eq_some_iff {cs : List Char} {w : Int64} :
    read? (Text.trim cs) = some w ↔ Stands cs w.toInt := by
  rw [read?_eq_some_iff]
  constructor
  · intro h
    obtain ⟨before, after, hcs, hbefore, hafter⟩ := Text.exists_of_trim cs
    exact ⟨before, Text.trim cs, after, hcs, hbefore, hafter, h⟩
  · rintro ⟨before, numeral, after, rfl, hbefore, hafter, h⟩
    rw [Text.trim_append hbefore h.isBlank hafter]
    exact h

theorem read?_trim_eq_none_iff {cs : List Char} :
    read? (Text.trim cs) = none ↔ ¬ ∃ n, Stands cs n ∧ -2 ^ 63 ≤ n ∧ n ≤ 2 ^ 63 - 1 := by
  rw [Option.eq_none_iff_forall_ne_some]
  refine ⟨fun h hstands => ?_, fun h w hw => h ?_⟩
  · obtain ⟨n, hn, hleast, hgreatest⟩ := hstands
    obtain ⟨w, hw⟩ : ∃ w, word? n = some w := by
      rw [← Option.ne_none_iff_exists', Ne, word?_eq_none_iff]
      omega
    rw [← word?_eq_some_iff.1 hw] at hn
    exact h w (read?_trim_eq_some_iff.2 hn)
  · have hword : ¬ word? w.toInt = none := by
      rw [word?_toInt]
      exact Option.some_ne_none w
    rw [word?_eq_none_iff] at hword
    exact ⟨w.toInt, read?_trim_eq_some_iff.1 hw, by omega, by omega⟩

end TableStore.Numeral
