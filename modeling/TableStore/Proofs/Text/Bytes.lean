import Mathlib.Data.String.Basic

/-!
# The order of texts is that of their bytes

* `Text.bytes`          the bytes of a text in UTF-8;
* `Text.encode_lt`      the bytes of a lesser character come before those of a greater one, whatever
                        follows them;
* `Text.bytes_lt_iff`   so texts are in order if their bytes are.
-/

namespace TableStore.Text

/-- the bytes of a text in UTF-8 -/
def bytes (s : String) : List UInt8 := s.toUTF8.data.toList

theorem bytes_eq (s : String) : bytes s = s.toList.flatMap String.utf8EncodeChar := by
  have hbytes : s.toUTF8 = (s.toList.flatMap String.utf8EncodeChar).toByteArray :=
    String.utf8Encode_toList.symm
  rw [bytes, hbytes, List.toList_data_toByteArray]

/-- bytes compare as the numbers that they are made of -/
theorem cons_ofNat_lt_iff {m n : Nat} (hm : m < 256) (hn : n < 256) {xs ys : List UInt8} :
    UInt8.ofNat m :: xs < UInt8.ofNat n :: ys ↔ m < n ∨ m = n ∧ xs < ys := by
  rw [List.cons_lt_cons_iff, UInt8.lt_iff_toNat_lt, ← UInt8.toNat_inj, UInt8.toNat_ofNat',
    UInt8.toNat_ofNat', Nat.mod_eq_of_lt hm, Nat.mod_eq_of_lt hn]

/-- the bytes of a lesser character come before those of a greater one, whatever follows -/
theorem encode_lt {c d : Char} (h : c < d) (xs ys : List UInt8) :
    String.utf8EncodeChar c ++ xs < String.utf8EncodeChar d ++ ys := by
  have hlt : c.val.toNat < d.val.toNat := h
  have hmax : d.val.toNat < 1114112 := by
    rcases d.valid with h | h
    · omega
    · exact h.2
  unfold String.utf8EncodeChar
  dsimp only
  generalize c.val.toNat = m, d.val.toNat = n at hlt hmax
  -- the parts of a number that the bytes hold, as parts of each other
  have hparts (k : Nat) : k / 64 / 64 = k / 4096 ∧ k / 4096 / 64 = k / 262144 :=
    ⟨Nat.div_div_eq_div_mul k 64 64, Nat.div_div_eq_div_mul k 4096 64⟩
  have hm := hparts m
  have hn := hparts n
  have hmtop : m / 262144 % 8 = m / 262144 := Nat.mod_eq_of_lt (by omega)
  have hntop : n / 262144 % 8 = n / 262144 := Nat.mod_eq_of_lt (by omega)
  split_ifs
  all_goals
    simp only [List.cons_append, List.nil_append]
    repeat rw [cons_ofNat_lt_iff (by omega) (by omega)]
    omega

theorem bytes_lt_of_lt {s t : String} (h : s < t) : bytes s < bytes t := by
  have hencode {cs ds : List Char} (h : List.Lex (· < ·) cs ds) :
      cs.flatMap String.utf8EncodeChar < ds.flatMap String.utf8EncodeChar := by
    induction h with
    | @nil d ds =>
      have hne : String.utf8EncodeChar d ≠ [] := String.utf8EncodeChar_ne_nil
      obtain ⟨b, bs, hb⟩ := List.exists_cons_of_ne_nil hne
      rw [List.flatMap_cons, hb]
      exact List.nil_lt_cons _ _
    | rel h =>
      rw [List.flatMap_cons, List.flatMap_cons]
      exact encode_lt h _ _
    | cons _ ih =>
      rw [List.flatMap_cons, List.flatMap_cons]
      exact List.append_left_lt ih
  rw [bytes_eq, bytes_eq]
  exact hencode (List.lex_lt.2 (String.lt_iff_toList_lt.1 h))

/-- texts are in order if their bytes are -/
theorem bytes_lt_iff {s t : String} : bytes s < bytes t ↔ s < t := by
  refine ⟨fun h => ?_, bytes_lt_of_lt⟩
  rcases lt_trichotomy s t with hlt | rfl | hgt
  · exact hlt
  · exact absurd h (List.lt_irrefl _)
  · exact absurd h (List.lt_asymm (bytes_lt_of_lt hgt))

end TableStore.Text
