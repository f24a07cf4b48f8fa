import Mathlib.Data.List.TakeWhile
import TableStore.Sql.Lexer

/-!
# Where a lexeme ends

* `Greedy`                     what goes on as long as it can: words, runs of digits, operators;
* `Lexeme.length_le_of_read`   no greedy beginning of a text is longer than the lexeme read there;
* `Lexeme.start`               the kinds of lexemes, told by the first character;
* `Lexeme.read_cut`            a lexeme is read as the same token when less follows it;
* `Lexeme.read_alone`          also when nothing follows it;
* `lex_alone`                  so its characters are a text of one token.
-/

namespace TableStore.Sql

theorem byteLength_eq (cs : List Char) : byteLength cs = (String.ofList cs).utf8ByteSize := by
  induction cs with
  | nil => rfl
  | cons c cs ih =>
    have hcons : byteLength (c :: cs) = c.utf8Size + byteLength cs := rfl
    rw [hcons, ih, String.ofList_cons, String.utf8ByteSize_append, String.utf8ByteSize_singleton]

/-- the characters of a text take its bytes -/
theorem byteLength_toList (text : String) : byteLength text.toList = text.utf8ByteSize := by
  rw [byteLength_eq, String.ofList_toList]

/-! ## classes of characters -/

section
variable {c : Char}

theorem isNameRest_of_isNameStart (h : isNameStart c = true) : isNameRest c = true := by
  unfold isNameStart at h
  unfold isNameRest Char.isAlphanum
  rw [Bool.or_eq_true] at h ⊢
  exact h.imp_left fun h => by rw [h, Bool.true_or]

theorem isNameRest_of_isDigit (h : c.isDigit = true) : isNameRest c = true := by
  unfold isNameRest Char.isAlphanum
  rw [h, Bool.or_true, Bool.true_or]

/-- no name starts with a digit -/
theorem isNameStart_of_isDigit (h : c.isDigit = true) : isNameStart c = false := by
  have hne : c ≠ '_' := by
    rintro rfl
    cases h
  have hle : c.val.toNat ≤ 57 := by
    unfold Char.isDigit at h
    rw [Bool.and_eq_true, decide_eq_true_iff, decide_eq_true_iff] at h
    exact UInt32.le_iff_toNat_le.1 h.2
  have hupper : c.isUpper = false := by
    unfold Char.isUpper
    rw [decide_eq_false_iff_not, ge_iff_le, UInt32.le_iff_toNat_le]
    intro hupper
    have : 65 ≤ c.val.toNat := hupper.1
    omega
  have hlower : c.isLower = false := by
    unfold Char.isLower
    rw [Bool.and_eq_false_iff, decide_eq_false_iff_not, ge_iff_le, UInt32.le_iff_toNat_le]
    refine Or.inl fun hlower => ?_
    have : 97 ≤ c.val.toNat := hlower
    omega
  unfold isNameStart Char.isAlpha
  rw [hupper, hlower, decide_eq_false hne]
  rfl

/-- a character of a name is no symbol -/
theorem Lexeme.symbols_of_isNameRest (h : isNameRest c = true) :
    Lexeme.punctuation? c = none ∧ Lexeme.operator? c = none := by
  constructor
  · unfold Lexeme.punctuation?
    split
    case h_7 => rfl
    all_goals cases h
  · unfold Lexeme.operator?
    split
    case h_5 => rfl
    all_goals cases h

end

/-! ## lexemes that go on as long as they can -/

/-- the symbols that are operators, or the beginning of one -/
def operators : List Symbol :=
  [.equal, .doubleEqual, .notEqual, .greater, .greaterEqual, .less, .lessEqual, .bang]

/-- a word, a run of digits, or an operator -/
inductive Greedy : List Char → Prop where
  | word {c : Char} {cs : List Char} (hc : isNameStart c = true)
    (hcs : ∀ d ∈ cs, isNameRest d = true) : Greedy (c :: cs)
  | digits {c : Char} {cs : List Char} (hc : c.isDigit = true)
    (hcs : ∀ d ∈ cs, d.isDigit = true) : Greedy (c :: cs)
  | operator {s : Symbol} (hs : s ∈ operators) : Greedy s.spelling.toList

/-- a beginning of a text whose characters all satisfy `p` is no longer than the longest one -/
theorem length_le_takeWhile {p : Char → Bool} {ds cs : List Char} (hstarts : ds <+: cs)
    (hds : ∀ d ∈ ds, p d = true) : ds.length ≤ (cs.takeWhile p).length := by
  obtain ⟨es, rfl⟩ := hstarts
  rw [List.takeWhile_append_of_pos hds, List.length_append]
  exact Nat.le_add_right _ _

namespace Lexeme

variable {c : Char} {cs : List Char} {l : Lexeme}

theorem read_of_isNameStart (hc : isNameStart c = true) (cs : List Char) :
    read c cs = .ok (word c cs) := by
  obtain ⟨hpunctuation, hoperator⟩ := symbols_of_isNameRest (isNameRest_of_isNameStart hc)
  unfold read
  rw [hpunctuation, hoperator]
  exact if_pos hc

theorem read_of_isDigit (hc : c.isDigit = true) (cs : List Char) : read c cs = number c cs := by
  obtain ⟨hpunctuation, hoperator⟩ := symbols_of_isNameRest (isNameRest_of_isDigit hc)
  unfold read
  rw [hpunctuation, hoperator]
  dsimp only
  rw [isNameStart_of_isDigit hc, if_neg Bool.false_ne_true, if_pos hc]

/-- a number takes all the digits there are -/
theorem chars_of_number (h : number c cs = .ok l) : l.chars = c :: cs.takeWhile Char.isDigit := by
  rw [number] at h
  split at h
  · cases h
    rfl
  · cases h

theorem read_of_operator? {p : Symbol × Symbol} (h : operator? c = some p) (cs : List Char) :
    read c cs = .ok (operator c p.1 p.2 cs) := by
  unfold operator? at h
  split at h
  case h_5 => cases h
  all_goals
    cases h
    rfl

theorem spelling_of_mem_operators {s : Symbol} (hs : s ∈ operators) :
    ∃ c p, operator? c = some p ∧ (s.spelling.toList = [c] ∨ s.spelling.toList = [c, '=']) := by
  simp only [operators, List.mem_cons, List.not_mem_nil, or_false] at hs
  rcases hs with rfl | rfl | rfl | rfl | rfl | rfl | rfl | rfl
  · exact ⟨'=', _, rfl, Or.inl rfl⟩
  · exact ⟨'=', _, rfl, Or.inr rfl⟩
  · exact ⟨'!', _, rfl, Or.inr rfl⟩
  · exact ⟨'>', _, rfl, Or.inl rfl⟩
  · exact ⟨'>', _, rfl, Or.inr rfl⟩
  · exact ⟨'<', _, rfl, Or.inl rfl⟩
  · exact ⟨'<', _, rfl, Or.inr rfl⟩
  · exact ⟨'!', _, rfl, Or.inl rfl⟩

/-- how the lexeme that starts with a character is read, whatever follows -/
inductive Start (c : Char) : Prop where
  | punctuation (s : Symbol) (hs : s.spelling.toList = [c])
    (hread : ∀ cs, read c cs = .ok ⟨.symbol s, [c], cs⟩)
  | operator (alone withEqual : Symbol) (hs : alone.spelling.toList = [c])
    (hread : ∀ cs, read c cs = .ok (operator c alone withEqual cs))
  | word (hc : isNameStart c = true) (hread : ∀ cs, read c cs = .ok (word c cs))
  | digit (hc : c.isDigit = true) (hread : ∀ cs, read c cs = number c cs)
  | quote (hc : c = '\'' ∨ c = '"') (hread : ∀ cs, read c cs = string c cs)
  | stray (hread : ∀ cs, read c cs = .error (.unexpected c))

theorem start (c : Char) : Start c := by
  cases hp : punctuation? c with
  | some s =>
    refine .punctuation s ?_ fun cs => ?_
    · unfold punctuation? at hp
      split at hp
      case h_7 => cases hp
      all_goals
        cases hp
        rfl
    · rw [read, hp]
  | none =>
    cases ho : operator? c with
    | some p =>
      refine .operator p.1 p.2 ?_ (read_of_operator? ho)
      unfold operator? at ho
      split at ho
      case h_5 => cases ho
      all_goals
        cases ho
        rfl
    | none =>
      by_cases hname : isNameStart c = true
      · exact .word hname (read_of_isNameStart hname)
      by_cases hdigit : c.isDigit = true
      · exact .digit hdigit (read_of_isDigit hdigit)
      have hread (cs : List Char) : read c cs
          = if c = '\'' ∨ c = '"' then string c cs else .error (.unexpected c) := by
        rw [read, hp, ho]
        dsimp only
        rw [if_neg hname, if_neg hdigit]
      by_cases hquote : c = '\'' ∨ c = '"'
      · refine .quote hquote fun cs => ?_
        rw [hread, if_pos hquote]
      · refine .stray fun cs => ?_
        rw [hread, if_neg hquote]

/-- no greedy beginning of a text is longer than the lexeme read there -/
theorem length_le_of_read (h : read c cs = .ok l) {run : List Char} (hrun : Greedy run)
    (hstarts : run <+: c :: cs) : run.length ≤ l.chars.length := by
  cases hrun with
  | @word d ds hd hds =>
    obtain ⟨rfl, hrest⟩ := List.cons_prefix_cons.1 hstarts
    rw [read_of_isNameStart hd] at h
    cases h
    exact Nat.succ_le_succ (length_le_takeWhile hrest hds)
  | @digits d ds hd hds =>
    obtain ⟨rfl, hrest⟩ := List.cons_prefix_cons.1 hstarts
    rw [read_of_isDigit hd] at h
    rw [chars_of_number h]
    exact Nat.succ_le_succ (length_le_takeWhile hrest hds)
  | @operator s hs =>
    obtain ⟨d, p, hd, hone | htwo⟩ := spelling_of_mem_operators hs
    · obtain ⟨ds, hchars, -⟩ := takes_read h
      rw [hone, hchars]
      exact Nat.succ_le_succ (Nat.zero_le _)
    · rw [htwo] at hstarts ⊢
      obtain ⟨rfl, es, rfl⟩ := List.cons_prefix_cons.1 hstarts
      rw [read_of_operator? hd] at h
      cases h
      exact Nat.le_refl _

/-! ## a lexeme with less after it -/

/-- what is left of a run ends it, however much of it is kept -/
theorem takeWhile_cut {p : Char → Bool} {cs kept cut : List Char}
    (hrest : cs.dropWhile p = kept ++ cut) :
    (cs.takeWhile p ++ kept).takeWhile p = cs.takeWhile p ∧
      (cs.takeWhile p ++ kept).dropWhile p = kept := by
  have hall : ∀ d ∈ cs.takeWhile p, p d = true := fun d => List.mem_takeWhile_imp
  have hkept : kept.takeWhile p = [] ∧ kept.dropWhile p = kept := by
    cases kept with
    | nil => exact ⟨rfl, rfl⟩
    | cons k ks =>
      have hhead := List.head?_dropWhile_not p cs
      rw [hrest] at hhead
      have hk : ¬ p k = true := by simpa using hhead
      exact ⟨List.takeWhile_cons_of_neg hk, List.dropWhile_cons_of_neg hk⟩
  rw [List.takeWhile_append_of_pos hall, List.dropWhile_append_of_pos hall, hkept.1, hkept.2]
  exact ⟨List.append_nil _, rfl⟩

/-- a quoted text is read as the same text whatever follows it -/
theorem string?_cut {quote : Char} {text chars cs text' chars' rest : List Char}
    (h : string? quote text chars cs = some (text', chars', rest)) (kept : List Char) :
    ∃ ds, chars' = chars.reverse ++ ds ∧
      string? quote text chars (ds ++ kept) = some (text', chars', kept) := by
  have hclose (text chars : List Char) : string? quote text chars (quote :: kept)
      = some (text.reverse, (quote :: chars).reverse, kept) := by
    cases kept <;> exact if_pos rfl
  fun_induction string? quote text chars cs with
  | case1 => contradiction
  | case2 text chars =>
    cases h
    exact ⟨[quote], List.reverse_cons, hclose text chars⟩
  | case3 => contradiction
  | case4 text chars d cs =>
    cases h
    exact ⟨[quote], List.reverse_cons, hclose text chars⟩
  | case5 text chars d cs hq ih =>
    obtain ⟨ds, hchars, hread⟩ := ih h
    refine ⟨'\\' :: d :: ds, by simp [hchars], ?_⟩
    rw [List.cons_append, List.cons_append, string?, if_neg hq, if_pos rfl]
    exact hread
  | case6 text chars c d cs hq hb ih =>
    obtain ⟨ds, hchars, hread⟩ := ih h
    refine ⟨c :: ds, by simp [hchars], ?_⟩
    rw [List.cons_append]
    cases hmore : ds ++ kept with
    | nil =>
      rw [hmore] at hread
      cases hread
    | cons e es =>
      rw [hmore] at hread
      rw [string?, if_neg hq, if_neg hb]
      exact hread

theorem operator_alone_of_head? {alone withEqual : Symbol} {rest : List Char}
    (h : ∀ d ∈ rest.head?, d ≠ '=') :
    operator c alone withEqual rest = ⟨.symbol alone, [c], rest⟩ := by
  rw [operator.eq_def]
  split
  · exact absurd rfl (h '=' rfl)
  · rfl

theorem operator_cut {alone withEqual : Symbol} {kept cut : List Char}
    (hrest : (operator c alone withEqual cs).rest = kept ++ cut) :
    ∃ ds, (operator c alone withEqual cs).chars = c :: ds ∧
      operator c alone withEqual (ds ++ kept)
        = ⟨(operator c alone withEqual cs).token, (operator c alone withEqual cs).chars, kept⟩ := by
  rw [operator.eq_def c alone withEqual cs] at hrest ⊢
  split at hrest
  · exact ⟨['='], rfl, rfl⟩
  · rename_i hequal
    refine ⟨[], rfl, operator_alone_of_head? fun d hd => ?_⟩
    obtain ⟨ds, rfl⟩ : ∃ ds, kept = d :: ds := List.head?_eq_some_iff.1 hd
    rintro rfl
    exact hequal (ds ++ cut) hrest

theorem number_cut {kept cut : List Char} (h : number c cs = .ok l)
    (hrest : l.rest = kept ++ cut) :
    number c (cs.takeWhile Char.isDigit ++ kept) = .ok ⟨l.token, l.chars, kept⟩ := by
  rw [number] at h ⊢
  split at h
  · rename_i n hn
    cases h
    obtain ⟨htake, hdrop⟩ := takeWhile_cut hrest
    rw [htake, hdrop, hn]
  · cases h

theorem string_cut (h : string c cs = .ok l) (kept : List Char) :
    ∃ ds, l.chars = c :: ds ∧ string c (ds ++ kept) = .ok ⟨l.token, l.chars, kept⟩ := by
  rw [string] at h
  split at h
  · rename_i text chars rest hs
    cases h
    obtain ⟨ds, hchars, hread⟩ := string?_cut hs kept
    refine ⟨ds, hchars, ?_⟩
    rw [string, hread]
  · cases h

/-- a lexeme is read as the same token with less after it: what goes on with it is not there, be it
kept or cut -/
theorem read_cut {kept cut : List Char} (h : read c cs = .ok l) (hrest : l.rest = kept ++ cut) :
    ∃ ds, l.chars = c :: ds ∧ read c (ds ++ kept) = .ok ⟨l.token, l.chars, kept⟩ := by
  cases start c with
  | punctuation s _ hread =>
    rw [hread] at h
    cases h
    exact ⟨[], rfl, hread kept⟩
  | operator alone withEqual _ hread =>
    rw [hread] at h
    cases h
    obtain ⟨ds, hchars, hcut⟩ := operator_cut hrest
    refine ⟨ds, hchars, ?_⟩
    rw [hread, hcut]
  | word _ hread =>
    rw [hread] at h
    cases h
    obtain ⟨htake, hdrop⟩ := takeWhile_cut hrest
    refine ⟨cs.takeWhile isNameRest, rfl, ?_⟩
    rw [hread, word, word, htake, hdrop]
  | digit _ hread =>
    rw [hread] at h
    refine ⟨cs.takeWhile Char.isDigit, chars_of_number h, ?_⟩
    rw [hread, number_cut h hrest]
  | quote _ hread =>
    rw [hread] at h
    obtain ⟨ds, hchars, hcut⟩ := string_cut h kept
    refine ⟨ds, hchars, ?_⟩
    rw [hread, hcut]
  | stray hread =>
    rw [hread] at h
    cases h

/-- the characters of a lexeme, with nothing after them, give the same token -/
theorem read_alone (h : read c cs = .ok l) :
    ∃ ds, l.chars = c :: ds ∧ read c ds = .ok ⟨l.token, l.chars, []⟩ := by
  obtain ⟨ds, hchars, hread⟩ := read_cut h (List.nil_append l.rest).symm
  rw [List.append_nil] at hread
  exact ⟨ds, hchars, hread⟩

end Lexeme

section
variable {c : Char} {cs : List Char} {l : Lexeme} (hc : Text.isBlank c = false)
include hc

/-- where a lexeme starts, its token comes before those of what follows it -/
theorem lexFrom_of_read (hl : Lexeme.read c cs = .ok l) (offset : Nat) :
    lexFrom offset (c :: cs)
      = (lexFrom (offset + byteLength l.chars) l.rest).map (⟨l.token, offset⟩ :: ·) := by
  rw [lexFrom, if_neg (by rw [hc]; exact Bool.false_ne_true)]
  split
  · rename_i fault hfault
    cases hl.symm.trans hfault
  · rename_i l' hl'
    cases hl.symm.trans hl'
    rfl

theorem lexFrom_of_fault {fault : LexicalFault} (hfault : Lexeme.read c cs = .error fault)
    (offset : Nat) : lexFrom offset (c :: cs) = .error (.lexical fault offset) := by
  rw [lexFrom, if_neg (by rw [hc]; exact Bool.false_ne_true)]
  split
  · rename_i fault' hfault'
    cases hfault.symm.trans hfault'
    rfl
  · rename_i l' hl'
    cases hfault.symm.trans hl'

/-- the characters of a lexeme are a text of one token -/
theorem lex_alone (h : Lexeme.read c cs = .ok l) :
    lex (String.ofList l.chars) = .ok ⟨[⟨l.token, 0⟩], byteLength l.chars⟩ := by
  obtain ⟨ds, hchars, hread⟩ := Lexeme.read_alone h
  have hlex : lexFrom 0 l.chars = .ok [⟨l.token, 0⟩] := by
    rw [hchars] at hread ⊢
    rw [lexFrom_of_read hc hread, lexFrom]
    rfl
  rw [lex, String.toList_ofList, hlex]
  rfl

end

end TableStore.Sql
