import TableStore.Json.Printer
import TableStore.Json.Reader

/-!
# Reading what was printed

* `run?_prettyChars`   from any stage that waits for a value, a printed value is read as that value,
  whatever comes after it;
* `read?_pretty`       reading gives back the tree that was printed.
-/

namespace TableStore.Json

/-! ## text -/

theorem hexDigit?_digitChar {n : Nat} (h : n < 16) : hexDigit? (Nat.digitChar n) = some n := by
  have : n ∈ List.range 16 := List.mem_range.2 h
  revert n
  decide +kernel

theorem unit?_control {c : Char} (h : c.toNat < 0x20) :
    unit? '0' '0' (Nat.digitChar (c.toNat / 16)) (Nat.digitChar (c.toNat % 16))
      = some (.char c) := by
  have hq := hexDigit?_digitChar (n := c.toNat / 16) (by omega)
  have hr := hexDigit?_digitChar (n := c.toNat % 16) (by omega)
  have h0 : hexDigit? '0' = some 0 := by decide
  have hn : ((0 * 16 + 0) * 16 + c.toNat / 16) * 16 + c.toNat % 16 = c.toNat := by omega
  simp only [unit?, hq, hr, h0, hn]
  rw [if_neg (by omega), Char.ofNat_toNat]

theorem pieces?_escape (c : Char) (done : List Piece) (cs : List Char) :
    pieces? done (escape c ++ cs) = pieces? (.char c :: done) cs := by
  unfold escape
  repeat' split
  all_goals try (subst_vars; rfl)
  · rename_i h
    simp only [List.cons_append, List.nil_append, pieces?, unit?_control h]
  · rename_i hq hb _ _ _ _ _ h
    rw [List.singleton_append, pieces?.eq_def]
    split
    · simp_all
    · simp_all
    · simp_all
    · rename_i he
      cases he
      rw [if_neg (by simp [hb, h])]
    · contradiction

theorem pieces?_quote (s : List Char) (done : List Piece) (cs : List Char) :
    pieces? done (s.flatMap escape ++ '"' :: cs) = some (done.reverse ++ s.map .char, cs) := by
  induction s generalizing done with
  | nil => simp [pieces?]
  | cons c s ih => simp [List.append_assoc, pieces?_escape, ih]

theorem joined?_map_char (s done : List Char) :
    joined? done (s.map .char) = some (done.reverse ++ s) := by
  induction s generalizing done with
  | nil => simp [joined?]
  | cons c s ih => simp [joined?, ih]

theorem textToken?_quote (s : String) (cs : List Char) :
    textToken? (s.toList.flatMap escape ++ '"' :: cs) = some (.text (some s), cs) := by
  simp [textToken?, pieces?_quote, joined?_map_char]

/-! ## numerals -/

/-- what follows does not go on with a numeral -/
def Closed (cs : List Char) : Prop := ∀ c ∈ cs.head?, ¬ c.isDigit ∧ c ≠ '.' ∧ c ≠ 'e' ∧ c ≠ 'E'

theorem takeWhile_append_closed {p : Char → Bool} {ds cs : List Char} (hd : ∀ c ∈ ds, p c)
    (hc : ∀ c ∈ cs.head?, ¬ p c) :
    (ds ++ cs).takeWhile p = ds ∧ (ds ++ cs).dropWhile p = cs := by
  induction ds with
  | nil =>
    cases cs with
    | nil => simp
    | cons c cs => simp_all
  | cons d ds ih => simp_all

theorem head?_digits_eq_zero {n : Nat} (h : (Numeral.digits n).head? = some '0') :
    Numeral.digits n = ['0'] := by
  unfold Numeral.digits at *
  induction n using Nat.strongRecOn with
  | ind n ih =>
    rw [Nat.toDigits_eq_if (by decide)] at h ⊢
    split at h
    · rename_i hn
      rw [if_pos hn]
      simpa using h
    · rename_i hn
      have hne : Nat.toDigits 10 (n / 10) ≠ [] := Nat.toDigits_ne_nil
      have h0 := ih (n / 10) (by omega) (by
        rw [List.head?_append] at h
        cases hd : (Nat.toDigits 10 (n / 10)).head? with
        | none => exact absurd (List.head?_eq_none_iff.1 hd) hne
        | some c => simpa [hd] using h)
      have hv := congrArg (fun ds => Nat.ofDigitChars 10 ds 0) h0
      simp only [Nat.ofDigitChars_ten_toDigits] at hv
      have : n / 10 = 0 := by rw [hv]; decide
      omega

theorem numeral?_digits (negative : Bool) (n : Nat) {cs : List Char} (hc : Closed cs) :
    numeral? negative (Numeral.digits n ++ cs)
      = some (.scalar (ofNumeral negative false (Numeral.digits n)), cs) := by
  have hall : ∀ c ∈ Numeral.digits n, c.isDigit = true := fun c h =>
    Nat.isDigit_of_mem_toDigits (by decide) (by decide) h
  obtain ⟨ht, hd⟩ := takeWhile_append_closed hall fun c h => (hc c h).1
  have hdigits : digits? (Numeral.digits n ++ cs) = some (Numeral.digits n, cs) := by
    unfold digits?
    rw [ht, hd]
    split
    · rename_i h
      exact absurd h Nat.toDigits_ne_nil
    · rfl
  have hf : fraction? cs = some (false, cs) := by
    unfold fraction?
    split
    · exact absurd rfl (hc '.' rfl).2.1
    · rfl
  have he : exponent? cs = some (false, cs) := by
    unfold exponent?
    split
    · exact absurd rfl (hc 'e' rfl).2.2.1
    · exact absurd rfl (hc 'E' rfl).2.2.2
    · rfl
  unfold numeral?
  rw [hdigits]
  simp only
  rw [if_neg, hf]
  · simp [he]
  · exact fun h => h.2 (head?_digits_eq_zero h.1)

/-! ## tokens and stages -/

theorem run?_blank (s : Stage) {c : Char} (cs : List Char) (h : isBlank c = true) :
    s.run? (c :: cs) = s.run? cs := by
  rw [Stage.run?, if_pos h]

theorem run?_token (s : Stage) {c : Char} {cs rest : List Char} {t : Token}
    (hb : isBlank c = false) (ht : token? c cs = some (t, rest)) :
    s.run? (c :: cs) = (s.step t).bind (·.run? rest) := by
  rw [Stage.run?, if_neg (by simp [hb])]
  split
  · simp_all
  · rename_i t' rest' h
    rw [ht] at h
    cases h
    cases s.step t <;> rfl

theorem run?_newline (s : Stage) (level : Nat) (cs : List Char) :
    s.run? (newline level ++ cs) = s.run? cs := by
  rw [newline, List.cons_append, run?_blank _ _ (by decide)]
  induction 2 * level with
  | zero => rfl
  | succ n ih => rw [List.replicate_succ, List.cons_append, run?_blank _ _ (by decide), ih]

theorem run?_quote (s : Stage) (k : String) (cs : List Char) :
    s.run? (quote k ++ cs) = (s.step (.text (some k))).bind (·.run? cs) := by
  have ht : token? '"' (k.toList.flatMap escape ++ '"' :: cs) = some (.text (some k), cs) :=
    textToken?_quote k cs
  simpa [quote] using run?_token s (by decide) ht

theorem token?_of_isDigit {c : Char} (h : c.isDigit = true) (cs : List Char) :
    token? c cs = numeral? false (c :: cs) ∧ isBlank c = false := by
  constructor
  · unfold token?
    split
    case h_12 => rw [if_pos h]
    all_goals exact absurd h (by decide)
  · cases hb : isBlank c
    · rfl
    · simp only [isBlank, Bool.or_eq_true, decide_eq_true_eq] at hb
      rcases hb with ((rfl | rfl) | rfl) | rfl <;> exact absurd h (by decide)

/-- the stage waits for a value inside what is open -/
def Stage.Awaits (s : Stage) (stack : List Frame) : Prop :=
  ∀ t, t ≠ .closeArray → s.step t = start stack t

theorem awaits_value (stack : List Frame) : (Stage.value stack).Awaits stack := fun _ _ => rfl

theorem awaits_firstItem (stack : List Frame) :
    (Stage.firstItem stack).Awaits (.items [] :: stack) := by
  intro t ht
  cases t <;> first | rfl | contradiction

theorem run?_int {s : Stage} {stack : List Frame} (hs : s.Awaits stack) (n : Int)
    {cs : List Char} (hc : Closed cs) :
    s.run? (Numeral.ofInt n ++ cs) = (Stage.finish (.int n) stack).run? cs := by
  cases n with
  | ofNat n =>
    have ht := numeral?_digits false n hc
    rw [ofNumeral, Numeral.ofDigits_digits] at ht
    rw [Numeral.ofInt]
    cases hd : Numeral.digits n with
    | nil => exact absurd hd Nat.toDigits_ne_nil
    | cons d ds =>
      rw [hd] at ht
      have hdigit : d.isDigit = true :=
        Nat.isDigit_of_mem_toDigits (b := 10) (n := n) (by decide) (by decide) (by
          unfold Numeral.digits at hd
          simp [hd])
      obtain ⟨h₁, h₂⟩ := token?_of_isDigit hdigit (ds ++ cs)
      rw [List.cons_append, run?_token s h₂ (h₁.trans ht), hs _ (by simp)]
      rfl
  | negSucc n =>
    have ht := numeral?_digits true (n + 1) hc
    rw [ofNumeral, Numeral.ofDigits_digits] at ht
    rw [Numeral.ofInt, List.cons_append]
    refine (run?_token s (by decide) (c := '-') ht).trans ?_
    rw [hs _ (by simp)]
    rfl

theorem run?_foreign {s : Stage} {stack : List Frame} (hs : s.Awaits stack)
    {cs : List Char} (hc : Closed cs) :
    s.run? (foreignWord ++ cs) = (Stage.finish .foreign stack).run? cs := by
  have ht : token? '-' ('0' :: cs) = some (.scalar .foreign, cs) := numeral?_digits true 0 hc
  refine (run?_token s (by decide) ht).trans ?_
  rw [hs _ (by simp)]
  rfl

theorem members?_reverse (done : List (String × Json)) (ms : List (String × Json)) :
    members? (done.map fun m => (some m.1, m.2)) ms = some (done.reverse ++ ms) := by
  induction done generalizing ms with
  | nil => rfl
  | cons m done ih => simp [members?, ih]

theorem closed_cons {c : Char} {cs : List Char} (h : ¬ c.isDigit ∧ c ≠ '.' ∧ c ≠ 'e' ∧ c ≠ 'E') :
    Closed (c :: cs) := by
  intro d hd
  cases hd
  exact h

theorem closed_newline (level : Nat) (cs : List Char) : Closed (newline level ++ cs) :=
  closed_cons (by decide)

mutual

theorem run?_prettyChars {s : Stage} {stack : List Frame} (hs : s.Awaits stack) (level : Nat)
    (j : Json) {cs : List Char} (hc : Closed cs) :
    s.run? (prettyChars level j ++ cs) = (Stage.finish j stack).run? cs := by
  match j with
  | .null =>
    rw [prettyChars]
    refine (run?_token s (by decide) (c := 'n') rfl).trans ?_
    rw [hs _ (by simp)]
    rfl
  | .bool true =>
    rw [prettyChars]
    refine (run?_token s (by decide) (c := 't') rfl).trans ?_
    rw [hs _ (by simp)]
    rfl
  | .bool false =>
    rw [prettyChars]
    refine (run?_token s (by decide) (c := 'f') rfl).trans ?_
    rw [hs _ (by simp)]
    rfl
  | .int n => rw [prettyChars]; exact run?_int hs n hc
  | .string k =>
    rw [prettyChars, run?_quote, hs _ (by simp)]
    rfl
  | .foreign => rw [prettyChars]; exact run?_foreign hs hc
  | .array [] =>
    rw [prettyChars]
    refine (run?_token s (by decide) (c := '[') rfl).trans ?_
    rw [hs _ (by simp)]
    refine (run?_token (.firstItem stack) (by decide) (c := ']') rfl).trans ?_
    rfl
  | .array (j :: js) =>
    simp only [prettyChars, List.append_assoc, List.cons_append]
    refine (run?_token s (by decide) (c := '[') rfl).trans ?_
    rw [hs _ (by simp)]
    exact run?_prettyItems (awaits_firstItem stack) (level + 1) j js level cs
  | .object [] =>
    rw [prettyChars]
    refine (run?_token s (by decide) (c := '\x7b') rfl).trans ?_
    rw [hs _ (by simp)]
    refine (run?_token (.firstKey stack) (by decide) (c := '\x7d') rfl).trans ?_
    rfl
  | .object (m :: ms) =>
    simp only [prettyChars, List.append_assoc, List.cons_append]
    refine (run?_token s (by decide) (c := '\x7b') rfl).trans ?_
    rw [hs _ (by simp)]
    exact run?_prettyMembers (s := .firstKey stack) [] (fun _ => rfl) (level + 1) m ms level cs
termination_by sizeOf j

theorem run?_prettyItems {s : Stage} {done : List Json} {stack : List Frame}
    (hs : s.Awaits (.items done :: stack)) (level : Nat) (j : Json) (js : List Json)
    (outer : Nat) (cs : List Char) :
    s.run? (prettyItems level (j :: js) ++ (newline outer ++ ([']'] ++ cs)))
      = (Stage.finish (.array (done.reverse ++ j :: js)) stack).run? cs := by
  match js with
  | [] =>
    rw [prettyItems, List.append_assoc, run?_newline,
      run?_prettyChars hs level j (closed_newline _ _), run?_newline]
    refine (run?_token _ (by decide) (c := ']') rfl).trans ?_
    simp [Stage.finish, Stage.step]
  | k :: js =>
    rw [prettyItems, List.append_assoc, List.append_assoc, run?_newline, List.cons_append,
      run?_prettyChars hs level j (closed_cons (by decide))]
    · refine (run?_token _ (by decide) (c := ',') rfl).trans ?_
      have h := run?_prettyItems (awaits_value (.items (j :: done) :: stack)) level k js outer cs
      simpa [Stage.finish, Stage.step] using h
    · simp
termination_by sizeOf (j :: js)

theorem run?_prettyMembers {s : Stage} {stack : List Frame} (done : List (String × Json))
    (hs : ∀ k, s.step (.text k) = some (.colon (done.map fun m => (some m.1, m.2)) k stack))
    (level : Nat) (m : String × Json) (ms : List (String × Json)) (outer : Nat) (cs : List Char) :
    s.run? (prettyMembers level (m :: ms) ++ (newline outer ++ (['\x7d'] ++ cs)))
      = (Stage.finish (.object (done.reverse ++ m :: ms)) stack).run? cs := by
  have key (k : String) (rest : List Char) :
      s.run? (quote k ++ (':' :: ' ' :: rest))
        = (Stage.value (.member (done.map fun m => (some m.1, m.2)) (some k) :: stack)).run?
          rest := by
    rw [run?_quote, hs]
    refine (run?_token _ (by decide) (c := ':') rfl).trans ?_
    exact run?_blank _ _ (by decide)
  match m, ms with
  | (k, j), [] =>
    rw [prettyMembers, List.append_assoc, List.append_assoc, run?_newline, List.cons_append,
      List.cons_append, key, run?_prettyChars (awaits_value _) level j (closed_newline _ _),
      run?_newline]
    refine (run?_token _ (by decide) (c := '\x7d') rfl).trans ?_
    have h := members?_reverse ((k, j) :: done) []
    simp only [List.map_cons] at h
    simp [Stage.finish, Stage.step, ofMembers, h]
  | (k, j), m' :: ms =>
    rw [prettyMembers, List.append_assoc, List.append_assoc, List.append_assoc, run?_newline,
      List.cons_append, List.cons_append, List.cons_append, key,
      run?_prettyChars (awaits_value _) level j (closed_cons (by decide))]
    · refine (run?_token _ (by decide) (c := ',') rfl).trans ?_
      have h := run?_prettyMembers (s := .key (((k, j) :: done).map fun m => (some m.1, m.2)) stack)
        ((k, j) :: done) (fun _ => rfl) level m' ms outer cs
      simpa [Stage.finish, Stage.step] using h
    · simp
termination_by sizeOf (m :: ms)

end

/-- reading gives back what was printed -/
theorem read?_pretty (j : Json) : read? j.pretty = some j := by
  have hc : Closed [] := by intro c hc; cases hc
  have h := run?_prettyChars (awaits_value []) 0 j hc
  rw [List.append_nil] at h
  simp only [read?, pretty, String.toList_ofList, h, Stage.finish, Stage.run?]

end TableStore.Json
