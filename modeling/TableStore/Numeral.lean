/-!
# Decimal text of integers

* `ofInt`    the shortest decimal text of an integer, with a minus sign below zero;
* `read?`    an optional sign and one or more ASCII digits, refused outside 64 signed bits.
-/

namespace TableStore.Numeral

/-- the number that a run of decimal digits writes -/
def ofDigits (ds : List Char) : Nat := Nat.ofDigitChars 10 ds 0

/-- the decimal digits of a number, without leading zeros -/
def digits (n : Nat) : List Char := Nat.toDigits 10 n

def ofInt : Int → List Char
  | .ofNat n => digits n
  | .negSucc n => '-' :: digits (n + 1)

/-- the word that holds an integer, when 64 signed bits can -/
def word? (n : Int) : Option Int64 :=
  if Int64.minValue.toInt ≤ n ∧ n ≤ Int64.maxValue.toInt then some (.ofInt n) else none

/-- the number written by a non-empty run of digits -/
def natural? (cs : List Char) : Option Nat :=
  if cs ≠ [] ∧ cs.all Char.isDigit then some (ofDigits cs) else none

/-- the word written by an optional sign and digits -/
def read? : List Char → Option Int64
  | '+' :: cs => (natural? cs).bind fun n => word? n
  | '-' :: cs => (natural? cs).bind fun n => word? (-n)
  | cs => (natural? cs).bind fun n => word? n

/-! ## reading gives back what was written -/

theorem ofDigits_digits (n : Nat) : ofDigits (digits n) = n := Nat.ofDigitChars_ten_toDigits

theorem isDigit_of_mem_digits {n : Nat} {c : Char} (h : c ∈ digits n) : c.isDigit = true :=
  Nat.isDigit_of_mem_toDigits (by decide) (by decide) h

theorem digits_ne_nil (n : Nat) : digits n ≠ [] := Nat.toDigits_ne_nil

theorem natural?_digits (n : Nat) : natural? (digits n) = some n := by
  have h : (digits n).all Char.isDigit = true :=
    List.all_eq_true.2 fun _ hc => isDigit_of_mem_digits hc
  rw [natural?, if_pos ⟨digits_ne_nil n, h⟩, ofDigits_digits]

theorem word?_toInt (w : Int64) : word? w.toInt = some w := by
  rw [word?, if_pos ⟨Int64.le_iff_toInt_le.1 w.minValue_le, Int64.le_iff_toInt_le.1 w.le_maxValue⟩,
    Int64.ofInt_toInt]

theorem toInt_of_word? {n : Int} {w : Int64} (h : word? n = some w) : w.toInt = n := by
  unfold word? at h
  split at h
  · rename_i hn
    obtain rfl := Option.some.inj h
    exact Int64.toInt_ofInt_of_le hn.1 (Int.lt_add_one_of_le hn.2)
  · contradiction

theorem read?_ofInt (n : Int) : read? (ofInt n) = word? n := by
  cases n with
  | ofNat n =>
    rw [ofInt]
    unfold read?
    split
    · rename_i cs h
      exact absurd (isDigit_of_mem_digits (n := n) (h ▸ List.mem_cons_self)) (by decide)
    · rename_i cs h
      exact absurd (isDigit_of_mem_digits (n := n) (h ▸ List.mem_cons_self)) (by decide)
    · rw [natural?_digits, Option.bind_some, Int.ofNat_eq_natCast]
  | negSucc n =>
    rw [ofInt, read?, natural?_digits, Option.bind_some, Int.negSucc_eq, Int.natCast_add_one]

example : read? "-0".toList = some 0 ∧ read? "+7".toList = some 7 := by decide
example : read? "9223372036854775808".toList = none ∧ read? "-".toList = none := by decide

end TableStore.Numeral
