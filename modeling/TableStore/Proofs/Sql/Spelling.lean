import TableStore.Json.RoundTrip
import TableStore.Proofs.Sql.Lexeme
import TableStore.Proofs.Sql.Reading
import TableStore.Proofs.Text.Blank

/-!
# Writing tokens down

* `Token.Spelled t cs`   the ways of writing a token: keywords in any letter case, numbers with any
                         leading zeros, texts between quotes of either kind;
* `Token.goesOn`         a character that would be taken for a part of the token before it;
* `Spelled.read`         a spelled token is read as that token, unless what follows goes on with it;
* `Reads cs ts`          the characters are read as the tokens, wherever they stand;
* `Reads.token`, `Reads.beforeBlank`, `Reads.blanks`
                         a token, and blanks, before what is read;
* `lex_spaced`           so tokens with blanks between them are read as those tokens.
-/

namespace TableStore.Sql

/-! ## spellings -/

/-- the word spells the keyword, each letter in either case -/
def Keyword.Spelled (k : Keyword) (word : List Char) : Prop :=
  word.map Char.toUpper = k.spelling.toList

instance (k : Keyword) (word : List Char) : Decidable (k.Spelled word) :=
  inferInstanceAs (Decidable (_ = _))

/-- a letter or an underscore, then letters, digits and underscores; and no keyword -/
structure IsName (name : String) : Prop where
  shape : ∃ c cs, name.toList = c :: cs ∧ isNameStart c = true ∧ ∀ d ∈ cs, isNameRest d = true
  free : ∀ k : Keyword, ¬ k.Spelled name.toList

/-- a backslash before each backslash and before each quote of the kind -/
def escaped (quote : Char) (cs : List Char) : List Char :=
  cs.flatMap fun c => if c = '\\' ∨ c = quote then ['\\', c] else [c]

namespace Token

/-- the characters write the token -/
inductive Spelled : Token → List Char → Prop where
  | keyword {k : Keyword} {word : List Char} (h : k.Spelled word) : Spelled (.keyword k) word
  | symbol (s : Symbol) : Spelled (.symbol s) s.spelling.toList
  | identifier {name : String} (h : IsName name) : Spelled (.identifier name) name.toList
  | number {n : Int64} (h : 0 ≤ n.toInt) (zeros : Nat) :
    Spelled (.number n) (List.replicate zeros '0' ++ Numeral.digits n.toInt.toNat)
  | string (s : String) {quote : Char} (h : quote = '\'' ∨ quote = '"') :
    Spelled (.string s) (quote :: (escaped quote s.toList ++ [quote]))

/-- next to the token, the character would be taken for a part of it -/
def goesOn : Token → Char → Bool
  | keyword _, c => isNameRest c
  | identifier _, c => isNameRest c
  | number _, c => c.isDigit
  | symbol s, c => (s = .equal || s = .greater || s = .less || s = .bang) && c = '='
  | string _, _ => false

end Token

/-! ## words -/

theorem isAlpha_of_toUpper {c : Char} (h : c.toUpper.isAlpha = true) : c.isAlpha = true := by
  unfold Char.toUpper at h
  split at h
  · rename_i hlower
    have hc : c.isLower = true := by
      unfold Char.isLower
      rw [decide_eq_true hlower.1, decide_eq_true hlower.2]
      rfl
    unfold Char.isAlpha
    rw [hc, Bool.or_true]
  · exact h

theorem Keyword.all_isAlpha_spelling (k : Keyword) : k.spelling.toList.all Char.isAlpha = true := by
  cases k <;> decide

theorem Keyword.spelled_spelling (k : Keyword) : k.Spelled k.spelling.toList := by
  cases k <;> decide

/-- a word that spells a keyword has the shape of a name -/
theorem Keyword.Spelled.shape {k : Keyword} {word : List Char} (h : k.Spelled word) :
    ∃ c cs, word = c :: cs ∧ isNameStart c = true ∧ ∀ d ∈ cs, isNameRest d = true := by
  have hstart : ∀ c ∈ word, isNameStart c = true := by
    intro c hc
    have hmem : c.toUpper ∈ k.spelling.toList := h ▸ List.mem_map_of_mem hc
    unfold isNameStart
    rw [isAlpha_of_toUpper (List.all_eq_true.1 k.all_isAlpha_spelling _ hmem), Bool.true_or]
  cases word with
  | nil => cases k <;> cases h
  | cons c cs =>
    rw [List.forall_mem_cons] at hstart
    exact ⟨c, cs, rfl, hstart.1, fun d hd => isNameRest_of_isNameStart (hstart.2 d hd)⟩

theorem Keyword.Spelled.ofWord? {k : Keyword} {word : List Char} (h : k.Spelled word) :
    Keyword.ofWord? word = some k := by
  unfold Keyword.ofWord?
  rw [h]
  cases k <;> decide

theorem IsName.ofWord? {name : String} (h : IsName name) :
    Keyword.ofWord? name.toList = none := by
  refine List.find?_eq_none.2 fun k _ hk => ?_
  exact h.free k (of_decide_eq_true hk).symm

namespace Lexeme

variable {c : Char} {cs rest : List Char}

/-- a word is read up to where it does not go on -/
theorem read_word (hc : isNameStart c = true) (hcs : ∀ d ∈ cs, isNameRest d = true)
    (hrest : ∀ d ∈ rest.head?, isNameRest d = false) :
    read c (cs ++ rest) = .ok ⟨ofWord (c :: cs), c :: cs, rest⟩ := by
  obtain ⟨htake, hdrop⟩ := Json.takeWhile_append_closed hcs fun d hd => by
    rw [hrest d hd]
    exact Bool.false_ne_true
  rw [read_of_isNameStart hc, word, htake, hdrop]

/-! ## numbers -/

theorem ofDigits_replicate (zeros n : Nat) :
    Numeral.ofDigits (List.replicate zeros '0' ++ Numeral.digits n) = n := by
  induction zeros with
  | zero => exact Numeral.ofDigits_digits n
  | succ zeros ih =>
    rw [List.replicate_succ, List.cons_append, Numeral.ofDigits, Nat.ofDigitChars_cons]
    exact ih

/-- digits are read up to where they do not go on -/
theorem read_digits (hc : c.isDigit = true) (hcs : ∀ d ∈ cs, d.isDigit = true) {n : Int64}
    (hn : Numeral.word? (Numeral.ofDigits (c :: cs)) = some n)
    (hrest : ∀ d ∈ rest.head?, d.isDigit = false) :
    read c (cs ++ rest) = .ok ⟨.number n, c :: cs, rest⟩ := by
  obtain ⟨htake, hdrop⟩ := Json.takeWhile_append_closed hcs fun d hd => by
    rw [hrest d hd]
    exact Bool.false_ne_true
  rw [read_of_isDigit hc, number, htake, hdrop, hn]

/-! ## texts -/

theorem escaped_cons (quote c : Char) (cs : List Char) :
    escaped quote (c :: cs)
      = (if c = '\\' ∨ c = quote then ['\\', c] else [c]) ++ escaped quote cs := rfl

/-- a quoted text ends at the quote that no backslash stands before -/
theorem string?_escaped {quote : Char} (hquote : quote = '\'' ∨ quote = '"')
    (s text chars rest : List Char) :
    string? quote text chars (escaped quote s ++ quote :: rest)
      = some (text.reverse ++ s, chars.reverse ++ (escaped quote s ++ [quote]), rest) := by
  induction s generalizing text chars with
  | nil =>
    cases rest with
    | nil => simp [escaped, string?]
    | cons d ds => simp [escaped, string?]
  | cons c s ih =>
    rw [escaped_cons]
    -- behind a backslash the two stand for themselves, and so does any other character alone
    by_cases hc : c = '\\' ∨ c = quote
    · have hback : '\\' ≠ quote := by rcases hquote with rfl | rfl <;> decide
      have hsame : unescape c = c := by
        rcases hc with rfl | rfl
        · rfl
        · rcases hquote with rfl | rfl <;> rfl
      rw [if_pos hc]
      simp only [List.cons_append, List.nil_append]
      rw [string?, if_neg hback, if_pos rfl, hsame, ih]
      simp
    · obtain ⟨hback, hother⟩ := not_or.1 hc
      have hmore : ∃ d ds, escaped quote s ++ quote :: rest = d :: ds :=
        List.exists_cons_of_ne_nil (by simp)
      obtain ⟨d, ds, hd⟩ := hmore
      rw [if_neg hc]
      simp only [List.cons_append, List.nil_append]
      rw [hd, string?, if_neg hother, if_neg hback, ← hd, ih]
      simp

theorem read_string {quote : Char} (hquote : quote = '\'' ∨ quote = '"') (s : String)
    (rest : List Char) :
    read quote (escaped quote s.toList ++ quote :: rest)
      = .ok ⟨.string s, quote :: (escaped quote s.toList ++ [quote]), rest⟩ := by
  have hread : read quote (escaped quote s.toList ++ quote :: rest)
      = string quote (escaped quote s.toList ++ quote :: rest) := by
    rcases hquote with rfl | rfl <;> rfl
  rw [hread, string, string?_escaped hquote]
  simp

end Lexeme

open Lexeme

/-- a spelled token is read as that token, unless what follows goes on with it -/
theorem Token.Spelled.read {t : Token} {cs rest : List Char} (h : t.Spelled cs)
    (hrest : ∀ d ∈ rest.head?, t.goesOn d = false) :
    ∃ c ds, cs = c :: ds ∧ Lexeme.read c (ds ++ rest) = .ok ⟨t, cs, rest⟩ := by
  cases h with
  | @keyword k _ hk =>
    obtain ⟨c, ds, rfl, hc, hds⟩ := hk.shape
    refine ⟨c, ds, rfl, ?_⟩
    rw [read_word hc hds hrest, ofWord, hk.ofWord?]
  | @identifier name hname =>
    obtain ⟨c, ds, hchars, hc, hds⟩ := hname.shape
    refine ⟨c, ds, hchars, ?_⟩
    rw [read_word hc hds hrest, ← hchars, ofWord, hname.ofWord?, String.ofList_toList]
  | @number n hn zeros =>
    have hdigit : ∀ c ∈ List.replicate zeros '0' ++ Numeral.digits n.toInt.toNat,
        c.isDigit = true := by
      intro c hc
      rcases List.mem_append.1 hc with hc | hc
      · rw [List.eq_of_mem_replicate hc]
        rfl
      · exact Numeral.isDigit_of_mem_digits hc
    have hvalue : Numeral.word? (Numeral.ofDigits
        (List.replicate zeros '0' ++ Numeral.digits n.toInt.toNat)) = some n := by
      rw [ofDigits_replicate, Int.toNat_of_nonneg hn, Numeral.word?_toInt]
    have hmore : List.replicate zeros '0' ++ Numeral.digits n.toInt.toNat ≠ [] :=
      fun hnil => Numeral.digits_ne_nil _ (List.append_eq_nil_iff.1 hnil).2
    obtain ⟨c, ds, hchars⟩ := List.exists_cons_of_ne_nil hmore
    rw [hchars] at hdigit hvalue ⊢
    rw [List.forall_mem_cons] at hdigit
    exact ⟨c, ds, rfl, read_digits hdigit.1 hdigit.2 hvalue hrest⟩
  | @string s quote hquote =>
    refine ⟨quote, escaped quote s.toList ++ [quote], rfl, ?_⟩
    rw [List.append_assoc]
    exact read_string hquote s rest
  | symbol s =>
    have halone (hs : s = .equal ∨ s = .greater ∨ s = .less ∨ s = .bang) :
        ∀ d ∈ rest.head?, d ≠ '=' := by
      rintro d hd rfl
      have hgoes := hrest '=' hd
      rcases hs with rfl | rfl | rfl | rfl <;> cases hgoes
    cases s
    case equal => exact ⟨'=', [], rfl, congrArg _ (operator_alone_of_head? (halone (by simp)))⟩
    case greater => exact ⟨'>', [], rfl, congrArg _ (operator_alone_of_head? (halone (by simp)))⟩
    case less => exact ⟨'<', [], rfl, congrArg _ (operator_alone_of_head? (halone (by simp)))⟩
    case bang => exact ⟨'!', [], rfl, congrArg _ (operator_alone_of_head? (halone (by simp)))⟩
    all_goals exact ⟨_, _, rfl, rfl⟩

/-! ## blanks -/

section
variable {c : Char}

theorem isNameRest_of_isBlank (h : Text.isBlank c = true) : isNameRest c = false := by
  have hblank := Text.toNat_of_isBlank h
  by_contra hname
  have hrange : 48 ≤ c.toNat ∧ c.toNat ≤ 122 := by
    unfold isNameRest Char.isAlphanum Char.isAlpha Char.isUpper Char.isLower Char.isDigit at hname
    simp only [Bool.not_eq_false, Bool.or_eq_true, Bool.and_eq_true, decide_eq_true_iff, ge_iff_le,
      UInt32.le_iff_toNat_le] at hname
    rcases hname with ((hupper | hlower) | hdigit) | rfl
    · exact ⟨Nat.le_trans (by decide) hupper.1, Nat.le_trans hupper.2 (by decide)⟩
    · exact ⟨Nat.le_trans (by decide) hlower.1, Nat.le_trans hlower.2 (by decide)⟩
    · exact ⟨hdigit.1, Nat.le_trans hdigit.2 (by decide)⟩
    · decide
  omega

/-- no token goes on with a blank -/
theorem Token.goesOn_of_isBlank (t : Token) (h : Text.isBlank c = true) : t.goesOn c = false := by
  have hname := isNameRest_of_isBlank h
  cases t with
  | keyword k => exact hname
  | identifier name => exact hname
  | number n =>
    by_contra hdigit
    rw [Bool.not_eq_false] at hdigit
    rw [isNameRest_of_isDigit hdigit] at hname
    cases hname
  | symbol s =>
    have hne : c ≠ '=' := by
      rintro rfl
      cases h
    show (_ && decide (c = '=')) = false
    rw [decide_eq_false hne, Bool.and_false]
  | string s => rfl

/-- no lexeme starts with a blank -/
theorem Lexeme.isBlank_of_read {cs : List Char} {l : Lexeme} (h : Lexeme.read c cs = .ok l) :
    Text.isBlank c = false := by
  by_contra hblank
  rw [Bool.not_eq_false] at hblank
  have hname := isNameRest_of_isBlank hblank
  have hpunctuation : punctuation? c = none := by
    unfold punctuation?
    split
    case h_7 => rfl
    all_goals cases hblank
  have hoperator : operator? c = none := by
    unfold operator?
    split
    case h_5 => rfl
    all_goals cases hblank
  have hstart : isNameStart c ≠ true := fun hc => by
    rw [isNameRest_of_isNameStart hc] at hname
    cases hname
  have hdigit : c.isDigit ≠ true := fun hc => by
    rw [isNameRest_of_isDigit hc] at hname
    cases hname
  have hquote : ¬ (c = '\'' ∨ c = '"') := by
    rintro (rfl | rfl) <;> cases hblank
  unfold Lexeme.read at h
  rw [hpunctuation, hoperator] at h
  dsimp only at h
  rw [if_neg hstart, if_neg hdigit, if_neg hquote] at h
  cases h

end

/-! ## what characters are read as -/

/-- the characters are read as the tokens, wherever they stand -/
def Reads (cs : List Char) (ts : List Token) : Prop :=
  ∀ offset, ∃ tokens, lexFrom offset cs = .ok tokens ∧ words tokens = ts

theorem reads_nil : Reads [] [] := by
  intro offset
  refine ⟨[], ?_, rfl⟩
  rw [lexFrom]

theorem Reads.blanks {blanks rest : List Char} {ts : List Token}
    (hblanks : ∀ c ∈ blanks, Text.isBlank c = true) (h : Reads rest ts) :
    Reads (blanks ++ rest) ts := by
  induction blanks with
  | nil => exact h
  | cons c blanks ih =>
    rw [List.forall_mem_cons] at hblanks
    intro offset
    obtain ⟨tokens, htokens, hwords⟩ := ih hblanks.2 (offset + c.utf8Size)
    refine ⟨tokens, ?_, hwords⟩
    rw [List.cons_append, lexFrom, if_pos hblanks.1, htokens]

theorem Reads.token {t : Token} {cs rest : List Char} {ts : List Token} (ht : t.Spelled cs)
    (hrest : ∀ d ∈ rest.head?, t.goesOn d = false) (h : Reads rest ts) :
    Reads (cs ++ rest) (t :: ts) := by
  intro offset
  obtain ⟨c, ds, rfl, hread⟩ := ht.read hrest
  obtain ⟨tokens, htokens, hwords⟩ := h (offset + byteLength (c :: ds))
  refine ⟨⟨t, offset⟩ :: tokens, ?_, congrArg (t :: ·) hwords⟩
  rw [List.cons_append, lexFrom_of_read (isBlank_of_read hread) hread, htokens]
  rfl

/-- no token goes on past a blank -/
theorem Reads.beforeBlank {t : Token} {cs rest : List Char} {ts : List Token} {c : Char}
    (ht : t.Spelled cs) (hc : Text.isBlank c = true) (h : Reads rest ts) :
    Reads (cs ++ c :: rest) (t :: ts) := by
  have hrest : Reads ([c] ++ rest) ts := h.blanks (List.forall_mem_singleton.2 hc)
  refine hrest.token ht fun d hd => t.goesOn_of_isBlank ?_
  obtain rfl : c = d := Option.some.inj hd
  exact hc

theorem Reads.lex {text : String} {ts : List Token} (h : Reads text.toList ts) :
    ∃ l, lex text = .ok l ∧ words l.tokens = ts ∧ l.stop = text.utf8ByteSize := by
  obtain ⟨tokens, htokens, hwords⟩ := h 0
  refine ⟨⟨tokens, byteLength text.toList⟩, ?_, hwords, ?_⟩
  · rw [Sql.lex, htokens]
    rfl
  · exact byteLength_toList text

/-! ## tokens with blanks between them -/

/-- the characters write the tokens, with blanks after each of them but the last -/
inductive Spaced : List Token → List Char → Prop where
  | none : Spaced [] []
  | last {t : Token} {cs : List Char} (h : t.Spelled cs) : Spaced [t] cs
  | more {t : Token} {ts : List Token} {cs blanks rest : List Char} (h : t.Spelled cs)
    (hsome : blanks ≠ []) (hblanks : ∀ c ∈ blanks, Text.isBlank c = true)
    (hrest : Spaced ts rest) : Spaced (t :: ts) (cs ++ blanks ++ rest)

theorem Spaced.reads {ts : List Token} {cs : List Char} (h : Spaced ts cs) : Reads cs ts := by
  induction h with
  | none => exact reads_nil
  | @last t cs h =>
    rw [← List.append_nil cs]
    exact reads_nil.token h (fun d hd => by cases hd)
  | @more t ts cs blanks rest h hsome hblanks _ ih =>
    obtain ⟨b, bs, rfl⟩ := List.exists_cons_of_ne_nil hsome
    rw [List.forall_mem_cons] at hblanks
    rw [List.append_assoc]
    exact (ih.blanks hblanks.2).beforeBlank h hblanks.1

/-- tokens, however they are spelled, with any blanks between them are read as those tokens, and
nothing comes after them but the end of the text -/
theorem lex_spaced {ts : List Token} {text : String} (h : Spaced ts text.toList) :
    ∃ l, lex text = .ok l ∧ words l.tokens = ts ∧ l.stop = text.utf8ByteSize :=
  h.reads.lex

/-- a keyword in both cases, texts that hold both kinds of quotes and backslashes at their ends, a
name that begins like a keyword, and the greatest number -/
def varied : List Token :=
  [.keyword .select, .string "it's\\", .string "\\\"n", .identifier "selected",
    .symbol .greaterEqual, .number Int64.maxValue]

def variedText : String :=
  "sElEcT\u3000'it\\'s\\\\'\t\"\\\\\\\"n\"\u2003selected\n>= 009223372036854775807"

theorem lex_spaced_varied :
    Spaced varied variedText.toList ∧
      ∃ l, lex variedText = .ok l ∧ words l.tokens = varied ∧
        l.stop = variedText.utf8ByteSize := by
  have hname : IsName "selected" := by
    refine ⟨⟨'s', "elected".toList, rfl, by decide, List.all_eq_true.1 (by decide)⟩, fun k => ?_⟩
    cases k <;> decide
  have hkeyword : (Token.keyword .select).Spelled "sElEcT".toList := .keyword (by decide)
  have hnumber : (Token.number Int64.maxValue).Spelled _ := .number (by decide) 2
  have hblank (c : Char) (hc : Text.isBlank c = true) : ∀ d ∈ [c], Text.isBlank d = true :=
    List.forall_mem_singleton.2 hc
  obtain ⟨chars, hspaced, hchars⟩ : ∃ chars, Spaced varied chars ∧ chars = variedText.toList :=
    ⟨_, .more hkeyword (List.cons_ne_nil _ _) (hblank '\u3000' (by decide))
      (.more (.string _ (.inl rfl)) (List.cons_ne_nil _ _) (hblank '\t' (by decide))
        (.more (.string _ (.inr rfl)) (List.cons_ne_nil _ _) (hblank '\u2003' (by decide))
          (.more (.identifier hname) (List.cons_ne_nil _ _) (hblank '\n' (by decide))
            (.more (.symbol _) (List.cons_ne_nil _ _) (hblank ' ' (by decide)) (.last hnumber))))),
      by decide +kernel⟩
  rw [hchars] at hspaced
  exact ⟨hspaced, lex_spaced hspaced⟩

end TableStore.Sql
