import TableStore.Proofs.Coercion
import TableStore.Proofs.Sql.Fault

/-!
# Integers in texts and statements

A text that is brought to an integer may have a sign, and blanks around it; a literal of a statement
has neither. Both are read exactly, with any leading zeros, or refused.

* `coerce?_text_eq_some_iff`, `coerce?_text_eq_none_iff`   a text as an integer;
* `Sql.Scans.lex_run`, `lex_run_of_large`                  a run of digits as a literal;
* `integers_exact`                                         both together.
-/

namespace TableStore

/-! ## texts -/

theorem coerce?_int_text (s : String) :
    DataType.int.coerce? (.text s) = (Numeral.read? (Text.trim s.toList)).map .int := rfl

theorem coerce?_text_eq_some_iff {s : String} {n : Int64} :
    DataType.int.coerce? (.text s) = some (.int n) ↔ Numeral.Stands s.toList n.toInt := by
  rw [coerce?_int_text, ← Numeral.read?_trim_eq_some_iff, Option.map_eq_some_iff]
  constructor
  · rintro ⟨m, hm, he⟩
    cases he
    exact hm
  · exact fun hn => ⟨n, hn, rfl⟩

theorem coerce?_text_eq_none_iff {s : String} :
    DataType.int.coerce? (.text s) = none
      ↔ ¬ ∃ n, Numeral.Stands s.toList n ∧ -2 ^ 63 ≤ n ∧ n ≤ 2 ^ 63 - 1 := by
  rw [coerce?_int_text, Option.map_eq_none_iff, Numeral.read?_trim_eq_none_iff]

/-! ## literals -/

namespace Sql

section
variable {before run after : String} {tokens : List Located} (hrun : Numeral.IsRun run.toList)
  (hafter : ∀ d ∈ after.toList.head?, d.isDigit = false)
  (h : Scans 0 before.toList tokens (run ++ after).toList)
include hrun hafter h

/-- a run of digits that a word can hold becomes the number that it means, and what follows is read
on its own -/
theorem Scans.lex_run (hvalue : Numeral.value run.toList ≤ 2 ^ 63 - 1) :
    ∃ n : Int64, n.toInt = Numeral.value run.toList ∧
      lex (before ++ run ++ after) = (lexFrom (before ++ run).utf8ByteSize after.toList).map
        fun later => ⟨tokens ++ ⟨.number n, before.utf8ByteSize⟩ :: later,
          (before ++ run ++ after).utf8ByteSize⟩ := by
  obtain ⟨n, hn⟩ : ∃ n, Numeral.word? (Numeral.value run.toList) = some n := by
    rw [← Option.ne_none_iff_exists', Ne, Numeral.word?_eq_none_iff]
    omega
  obtain ⟨c, cs, hchars, hc, hread, -⟩ := read_of_isRun hrun hafter
  have hbytes : (before ++ run).utf8ByteSize = before.utf8ByteSize + byteLength run.toList := by
    rw [String.utf8ByteSize_append, byteLength_toList]
  have hfrom := lexFrom_of_read (Text.isBlank_of_isDigit hc) (hread n hn) before.utf8ByteSize
  rw [← List.cons_append, ← hchars, ← String.toList_append, ← hbytes] at hfrom
  refine ⟨n, Numeral.word?_eq_some_iff.1 hn, ?_⟩
  rw [String.append_assoc, h.lex_append, hfrom]
  cases lexFrom (before ++ run).utf8ByteSize after.toList <;> rfl

theorem Scans.lex_run_of_large (hvalue : 2 ^ 63 - 1 < Numeral.value run.toList) :
    lex (before ++ run ++ after) = .error (.lexical (.integerTooLarge run) before.utf8ByteSize) := by
  have hfault := Faulty.integerTooLarge hrun hafter hvalue
  rw [← String.toList_append, String.ofList_toList] at hfault
  rw [String.append_assoc]
  exact h.lex_of_faulty hfault

end

end Sql

/-! ## both -/

open Sql in
/-- a text is read as the integer that it means, if it is a numeral of 64 signed bits between blanks,
and refused otherwise; and a run of digits where a statement has a literal becomes the number that it
means, or is refused at its first byte past the greatest word -/
theorem integers_exact :
    (∀ (s : String) (n : Int64), DataType.int.coerce? (.text s) = some (.int n)
        ↔ Numeral.Stands s.toList n.toInt) ∧
      (∀ s : String, DataType.int.coerce? (.text s) = none
        ↔ ¬ ∃ n, Numeral.Stands s.toList n ∧ -2 ^ 63 ≤ n ∧ n ≤ 2 ^ 63 - 1) ∧
      ∀ (before run after : String) (tokens : List Located), Numeral.IsRun run.toList →
        (∀ d ∈ after.toList.head?, d.isDigit = false) →
        Scans 0 before.toList tokens (run ++ after).toList →
        (Numeral.value run.toList ≤ 2 ^ 63 - 1 →
          ∃ n : Int64, n.toInt = Numeral.value run.toList ∧
            lex (before ++ run ++ after) = (lexFrom (before ++ run).utf8ByteSize after.toList).map
              fun later => ⟨tokens ++ ⟨.number n, before.utf8ByteSize⟩ :: later,
                (before ++ run ++ after).utf8ByteSize⟩) ∧
        (2 ^ 63 - 1 < Numeral.value run.toList → lex (before ++ run ++ after)
          = .error (.lexical (.integerTooLarge run) before.utf8ByteSize)) :=
  ⟨fun _ _ => coerce?_text_eq_some_iff, fun _ => coerce?_text_eq_none_iff,
    fun _ _ _ _ hrun hafter h =>
      ⟨fun hvalue => h.lex_run hrun hafter hvalue,
        fun hvalue => h.lex_run_of_large hrun hafter hvalue⟩⟩

/-- the least word between blanks, the greatest one behind a blank and zeros, and one more than it -/
theorem integers_exact_limits :
    DataType.int.coerce? (.text "\u3000-9223372036854775808\n") = some (.int Int64.minValue) ∧
      (∃ n : Int64, n.toInt = 9223372036854775807 ∧
        Sql.lex " 009223372036854775807" = .ok ⟨[⟨.number n, 1⟩], 22⟩) ∧
      Sql.lex " 9223372036854775808"
        = .error (.lexical (.integerTooLarge "9223372036854775808") 1) := by
  obtain ⟨hsome, -, hliteral⟩ := integers_exact
  have hscans (rest : List Char) : Sql.Scans 0 " ".toList [] rest := .blank (by decide) (.here _ rest)
  refine ⟨(hsome _ _).2 ?_, ?_, ?_⟩
  · have hwrites : Numeral.Writes "-9223372036854775808".toList
        (-Numeral.value "9223372036854775808".toList) := .minus (by decide +kernel)
    rw [show -(Numeral.value "9223372036854775808".toList : Int) = Int64.minValue.toInt by
      decide +kernel] at hwrites
    exact ⟨['\u3000'], _, ['\n'], by decide, List.forall_mem_singleton.2 (by decide),
      List.forall_mem_singleton.2 (by decide), hwrites⟩
  · obtain ⟨hsmall, -⟩ := hliteral " " "009223372036854775807" "" [] (by decide +kernel)
      (fun d hd => by cases hd) (hscans _)
    obtain ⟨n, hn, hlex⟩ := hsmall (by decide +kernel)
    rw [show Numeral.value "009223372036854775807".toList = 9223372036854775807 by
      decide +kernel] at hn
    rw [show "".toList = ([] : List Char) by decide, Sql.lexFrom] at hlex
    exact ⟨n, hn, hlex⟩
  · obtain ⟨-, hlarge⟩ := hliteral " " "9223372036854775808" "" [] (by decide +kernel)
      (fun d hd => by cases hd) (hscans _)
    exact hlarge (by decide +kernel)

end TableStore
