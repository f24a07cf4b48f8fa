import TableStore.Column.Def
import TableStore.Proofs.Text.Blank

/-!
# Bringing values to types, and back

* `coerce?_eq_some_null_iff`   only the empty value is brought to the empty value;
* `prepare_eq_coerce`          what a column is given needs no check once brought to its type;
* `Numeral.read?_trim_ofInt`   the text of an integer reads as that integer;
* `coerce?_text_plain`         the plain text of a value stands for the value, in the type that holds
                               it;
* `coerce?_retraction`         so a value is changed once at most, and never by a detour through its
                               text.
-/

namespace TableStore

/-! ## once is enough -/

/-- a value that a type holds is empty or of that type -/
theorem dataType?_of_holds {t : DataType} {v : Value} (h : t.holds v = true) (hv : v ≠ .null) :
    v.dataType? = some t := by
  cases v <;> simp_all [DataType.holds, Value.dataType?]

theorem DataType.holds_iff {t : DataType} {v : Value} :
    t.holds v = true ↔ v = .null ∨ v.dataType? = some t := by
  by_cases hnull : v = .null
  · subst hnull
    exact iff_of_true rfl (Or.inl rfl)
  · constructor
    · exact fun h => Or.inr (dataType?_of_holds h hnull)
    · intro h
      have htype : v.dataType? = some t := h.resolve_left hnull
      simp [DataType.holds, htype]

theorem coerce?_null (t : DataType) : t.coerce? .null = some .null := by
  cases t <;> rfl

theorem coerce?_eq_some_null_iff {t : DataType} {v : Value} :
    t.coerce? v = some .null ↔ v = .null := by
  constructor
  · intro h
    unfold DataType.coerce? at h
    split at h
    case h_1 => rfl
    case h_3 | h_8 =>
      obtain ⟨_, -, he⟩ := Option.map_eq_some_iff.1 h
      cases he
    case h_7 =>
      split at h
      · cases h
      · split at h <;> cases h
    all_goals cases h
  · rintro rfl
    exact coerce?_null t

/-- what is brought to the type of a column has that type, so the second check lets it through -/
theorem ColumnDef.prepare_eq_coerce (d : ColumnDef) (v : Value) : d.prepare v = d.coerce v := by
  unfold prepare coerce
  cases h : d.type.coerce? v with
  | none => rfl
  | some w =>
    show (if d.type.holds w = true then _ else _) = _
    rw [if_pos (holds_of_coerce? h)]

theorem coerce_eq_ok_iff {d : ColumnDef} {v w : Value} :
    d.coerce v = .ok w ↔ d.type.coerce? v = some w := by
  unfold ColumnDef.coerce
  cases d.type.coerce? v with
  | none => simp
  | some u => simp

theorem prepare_eq_ok_iff {d : ColumnDef} {v w : Value} :
    d.prepare v = .ok w ↔ d.type.coerce? v = some w := by
  rw [d.prepare_eq_coerce, coerce_eq_ok_iff]

theorem prepare_of_coerce?_eq_none {d : ColumnDef} {v : Value} (h : d.type.coerce? v = none) :
    d.prepare v = .error (.type d.name (.notCoercible v d.type)) := by
  rw [d.prepare_eq_coerce]
  unfold ColumnDef.coerce
  rw [h]

/-! ## values as texts -/

theorem Numeral.isBlank_of_mem_ofInt {n : Int} {c : Char} (h : c ∈ ofInt n) :
    Text.isBlank c = false := by
  cases n with
  | ofNat n => exact Text.isBlank_of_isDigit (isDigit_of_mem_digits h)
  | negSucc n =>
    rcases List.mem_cons.1 h with rfl | h
    · decide
    · exact Text.isBlank_of_isDigit (isDigit_of_mem_digits h)

/-- the text of an integer reads as that integer -/
theorem Numeral.read?_trim_ofInt (n : Int64) : read? (Text.trim (ofInt n.toInt)) = some n := by
  rw [Text.trim_eq_self fun c => isBlank_of_mem_ofInt, read?_ofInt, word?_toInt]

/-- the plain text of a value stands for the value, in the type that holds it -/
theorem coerce?_text_plain {t : DataType} {v : Value} (h : v.dataType? = some t) :
    t.coerce? (.text v.plain) = some v := by
  cases v with
  | null => cases h
  | int n =>
    cases h
    show (Numeral.read? (Text.trim (String.ofList _).toList)).map Value.int = _
    rw [String.toList_ofList, Numeral.read?_trim_ofInt]
    rfl
  | text s =>
    cases h
    rfl
  | bool b =>
    cases h
    cases b <;> decide

/-- a value of a type stands for itself after a detour through its text -/
theorem coerce?_by_text {t : DataType} {v : Value} (h : t.holds v = true) :
    (DataType.text.coerce? v).bind t.coerce? = some v := by
  by_cases hnull : v = .null
  · rw [hnull, coerce?_null, Option.bind_some, coerce?_null]
  · have hplain : DataType.text.coerce? v = some (.text v.plain) := by
      cases v with
      | null => exact absurd rfl hnull
      | int n => rfl
      | text s => rfl
      | bool b => rfl
    rw [hplain]
    exact coerce?_text_plain (dataType?_of_holds h hnull)

/-! ## both together -/

/-- what a value is brought to has the type, stays what it is the second time, and is empty for the
empty value only, so that a column never refuses it; and a value of the type stays what it is the
first time, also after a detour through its text -/
theorem DataType.coerce?_retraction (t : DataType) (v : Value) :
    (∀ w, t.coerce? v = some w →
        t.holds w = true ∧ t.coerce? w = some w ∧ (w = .null ↔ v = .null)) ∧
      (∀ d : ColumnDef, d.prepare v = d.coerce v ∧
        ∀ u s, d.prepare v ≠ .error (.type d.name (.notOfType u s))) ∧
      (t.holds v = true →
        t.coerce? v = some v ∧ (DataType.text.coerce? v).bind t.coerce? = some v) := by
  refine ⟨fun w hw => ?_, fun d => ?_, fun hv => ⟨coerce?_of_holds hv, coerce?_by_text hv⟩⟩
  · have hholds := holds_of_coerce? hw
    refine ⟨hholds, coerce?_of_holds hholds, ?_⟩
    constructor
    · rintro rfl
      exact coerce?_eq_some_null_iff.1 hw
    · rintro rfl
      rw [coerce?_null] at hw
      exact (Option.some.inj hw).symm
  · rw [d.prepare_eq_coerce]
    refine ⟨rfl, fun u s herror => ?_⟩
    unfold ColumnDef.coerce at herror
    split at herror <;> cases herror

/-- the least integer between blanks: read once, and the same by its text -/
theorem coerce?_retraction_least :
    DataType.int.coerce? (.text "\u3000-9223372036854775808\n") = some (.int Int64.minValue) ∧
      DataType.int.coerce? (.int Int64.minValue) = some (.int Int64.minValue) ∧
      (DataType.text.coerce? (.int Int64.minValue)).bind DataType.int.coerce?
        = some (.int Int64.minValue) := by
  have hread : DataType.int.coerce? (.text "\u3000-9223372036854775808\n")
      = some (.int Int64.minValue) := by decide +kernel
  obtain ⟨hresult, -, -⟩ :=
    DataType.coerce?_retraction .int (.text "\u3000-9223372036854775808\n")
  obtain ⟨hholds, hagain, -⟩ := hresult _ hread
  obtain ⟨-, -, hback⟩ := DataType.coerce?_retraction .int (.int Int64.minValue)
  exact ⟨hread, hagain, (hback hholds).2⟩

end TableStore
