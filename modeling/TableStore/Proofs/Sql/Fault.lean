import TableStore.Proofs.Numeral
import TableStore.Proofs.Sql.Scan

/-!
# Where a text stops being tokens

* `Quoted quote cs`          characters that may stand between two quotes;
* `Faulty fault cs`          what starts there is no lexeme, for the reason given: a character that
                             begins no token, digits past the greatest word, or a quote left open;
* `faulty_iff`               these are the lexemes that cannot be read;
* `Scans.lex_of_faulty`      a text that is read up to such a place is refused there;
* `lex_error_at_fault`       and no other text is refused.
-/

namespace TableStore.Sql

/-- between two quotes: no quote of the kind, and a backslash takes the character after it along -/
inductive Quoted (quote : Char) : List Char → Prop where
  | nil : Quoted quote []
  | plain {c : Char} {cs : List Char} (hquote : c ≠ quote) (hback : c ≠ '\\')
    (h : Quoted quote cs) : Quoted quote (c :: cs)
  | escape {c : Char} {cs : List Char} (h : Quoted quote cs) : Quoted quote ('\\' :: c :: cs)

/-- a quote that was opened before the characters is closed in them -/
def Closes (quote : Char) (cs : List Char) : Prop :=
  ∃ body rest, Quoted quote body ∧ cs = body ++ quote :: rest

/-- at the start of the characters there is neither a blank nor a lexeme -/
inductive Faulty : LexicalFault → List Char → Prop where
  | unexpected {c : Char} {cs : List Char} (hblank : Text.isBlank c = false)
    (hnone : ∀ (t : Token) (ds : List Char), ¬ t.Spelled (c :: ds)) :
    Faulty (.unexpected c) (c :: cs)
  | integerTooLarge {ds rest : List Char} (hds : Numeral.IsRun ds)
    (hrest : ∀ d ∈ rest.head?, d.isDigit = false) (hlarge : 2 ^ 63 - 1 < Numeral.value ds) :
    Faulty (.integerTooLarge (String.ofList ds)) (ds ++ rest)
  | unterminated {quote : Char} {cs : List Char} (hquote : quote = '\'' ∨ quote = '"')
    (hopen : ¬ Closes quote cs) : Faulty .unterminated (quote :: cs)

/-! ## quotes -/

section
variable {quote : Char} {text chars cs : List Char}

theorem closes_of_string? {r : List Char × List Char × List Char}
    (h : Lexeme.string? quote text chars cs = some r) : Closes quote cs := by
  fun_induction Lexeme.string? quote text chars cs with
  | case1 => cases h
  | case2 => exact ⟨[], [], .nil, rfl⟩
  | case3 => cases h
  | case4 text chars d cs => exact ⟨[], d :: cs, .nil, rfl⟩
  | case5 text chars d cs hquote ih =>
    obtain ⟨body, rest, hbody, rfl⟩ := ih h
    exact ⟨'\\' :: d :: body, rest, .escape hbody, rfl⟩
  | case6 text chars c d cs hquote hback ih =>
    obtain ⟨body, rest, hbody, hcs⟩ := ih h
    exact ⟨c :: body, rest, .plain hquote hback hbody, congrArg (c :: ·) hcs⟩

theorem Quoted.string?_ne_none (hquote : quote ≠ '\\') {body : List Char} (h : Quoted quote body)
    (rest : List Char) : Lexeme.string? quote text chars (body ++ quote :: rest) ≠ none := by
  induction h generalizing text chars with
  | nil =>
    rw [List.nil_append]
    cases rest with
    | nil => simp [Lexeme.string?]
    | cons d ds => simp [Lexeme.string?]
  | @plain c cs hc hback h ih =>
    obtain ⟨d, ds, hmore⟩ : ∃ d ds, cs ++ quote :: rest = d :: ds :=
      List.exists_cons_of_ne_nil (by simp)
    rw [List.cons_append, hmore, Lexeme.string?, if_neg hc, if_neg hback, ← hmore]
    exact ih
  | @escape c cs h ih =>
    rw [List.cons_append, List.cons_append, Lexeme.string?, if_neg (Ne.symm hquote), if_pos rfl]
    exact ih

/-- a text is read between quotes exactly if the first one is closed -/
theorem string?_eq_none_iff (hquote : quote = '\'' ∨ quote = '"') :
    Lexeme.string? quote text chars cs = none ↔ ¬ Closes quote cs := by
  have hback : quote ≠ '\\' := by rcases hquote with rfl | rfl <;> decide
  constructor
  · rintro h ⟨body, rest, hbody, rfl⟩
    exact hbody.string?_ne_none hback rest h
  · intro hopen
    rw [Option.eq_none_iff_forall_ne_some]
    exact fun r hr => hopen (closes_of_string? hr)

end

/-! ## digits -/

section
variable {ds rest : List Char} (hds : Numeral.IsRun ds)
  (hrest : ∀ d ∈ rest.head?, d.isDigit = false)
include hds hrest

/-- a run of digits is read as its number, or refused with all its digits -/
theorem read_of_isRun : ∃ c cs, ds = c :: cs ∧ c.isDigit = true ∧
    (∀ n, Numeral.word? (Numeral.value ds) = some n →
      Lexeme.read c (cs ++ rest) = .ok ⟨.number n, ds, rest⟩) ∧
    (Numeral.word? (Numeral.value ds) = none →
      Lexeme.read c (cs ++ rest) = .error (.integerTooLarge (String.ofList ds))) := by
  obtain ⟨c, cs, rfl⟩ := List.exists_cons_of_ne_nil hds.1
  obtain ⟨hc, hcs⟩ := List.forall_mem_cons.1 hds.2
  refine ⟨c, cs, rfl, hc, fun n hn => ?_, fun hnone => ?_⟩
  · rw [← Numeral.ofDigits_eq_value] at hn
    exact Lexeme.read_digits hc hcs hn hrest
  · obtain ⟨htake, -⟩ := Json.takeWhile_append_closed hcs fun d hd => by
      rw [hrest d hd]
      exact Bool.false_ne_true
    rw [Lexeme.read_of_isDigit hc, Lexeme.number, htake, Numeral.ofDigits_eq_value, hnone]

end

/-! ## characters that begin no token -/

theorem digits_of_isDigit {c : Char} (hc : c.isDigit = true) :
    Numeral.digits (c.toNat - 48) = [c] := by
  have hrange := Text.toNat_of_isDigit hc
  have hchar : (c.toNat - 48).digitChar = c := by
    apply Char.toNat_inj.1
    rw [Nat.toNat_digitChar_of_lt_ten (by omega)]
    omega
  rw [Numeral.digits, Nat.toDigits_of_lt_base (by omega), hchar]

/-- a letter alone is a name: keywords are longer -/
theorem isName_singleton {c : Char} (hc : isNameStart c = true) : IsName (String.ofList [c]) := by
  refine ⟨⟨c, [], String.toList_ofList, hc, List.forall_mem_nil _⟩, fun k hk => ?_⟩
  have hlen := congrArg List.length hk
  rw [String.toList_ofList] at hlen
  cases k <;> simp [Keyword.spelling] at hlen

theorem exists_spelled_of_read {c : Char} {cs : List Char}
    (h : Lexeme.read c cs ≠ .error (.unexpected c)) :
    ∃ (t : Token) (ds : List Char), t.Spelled (c :: ds) := by
  cases Lexeme.start c with
  | punctuation s hs _ => exact ⟨.symbol s, [], hs ▸ .symbol s⟩
  | operator alone _ hs _ => exact ⟨.symbol alone, [], hs ▸ .symbol alone⟩
  | word hc _ =>
    have hname := Token.Spelled.identifier (isName_singleton hc)
    rw [String.toList_ofList] at hname
    exact ⟨_, [], hname⟩
  | digit hc _ =>
    have hrange := Text.toNat_of_isDigit hc
    obtain ⟨n, hn⟩ : ∃ n, Numeral.word? (c.toNat - 48 : Nat) = some n := by
      rw [← Option.ne_none_iff_exists', Ne, Numeral.word?_eq_none_iff]
      omega
    have hvalue := Numeral.word?_eq_some_iff.1 hn
    have hnumber := Token.Spelled.number (n := n) (by omega) 0
    rw [hvalue, Int.toNat_natCast, digits_of_isDigit hc] at hnumber
    exact ⟨_, [], hnumber⟩
  | quote hc _ => exact ⟨_, _, .string "" hc⟩
  | stray hread => exact absurd (hread cs) h

theorem not_spelled_of_stray {c : Char} (h : ∀ cs, Lexeme.read c cs = .error (.unexpected c))
    (t : Token) (ds : List Char) : ¬ t.Spelled (c :: ds) := by
  intro hspelled
  have hend : ∀ d ∈ ([] : List Char).head?, t.goesOn d = false := fun d hd => by cases hd
  obtain ⟨d, es, hchars, hread⟩ := hspelled.read hend
  obtain ⟨rfl, -⟩ := List.cons.inj hchars
  rw [h] at hread
  cases hread

/-! ## faults -/

theorem Faulty.read {fault : LexicalFault} {c : Char} {cs : List Char}
    (h : Faulty fault (c :: cs)) :
    Text.isBlank c = false ∧ Lexeme.read c cs = .error fault := by
  generalize hall : c :: cs = all at h
  cases h with
  | unexpected hblank hnone =>
    cases hall
    refine ⟨hblank, ?_⟩
    by_contra hread
    obtain ⟨t, ds, hspelled⟩ := exists_spelled_of_read hread
    exact hnone t ds hspelled
  | @integerTooLarge ds rest hds hrest hlarge =>
    obtain ⟨d, es, rfl, hd, -, hread⟩ := read_of_isRun hds hrest
    obtain ⟨rfl, rfl⟩ := List.cons.inj hall
    exact ⟨Text.isBlank_of_isDigit hd, hread (Numeral.word?_eq_none_iff.2 (by omega))⟩
  | @unterminated quote _ hquote hopen =>
    cases hall
    have hstring : Lexeme.read c cs = Lexeme.string c cs := by
      rcases hquote with rfl | rfl <;> rfl
    refine ⟨by rcases hquote with rfl | rfl <;> decide, ?_⟩
    rw [hstring, Lexeme.string, (string?_eq_none_iff hquote).2 hopen]

/-- a lexeme cannot be read exactly if what starts there is one of the three faults -/
theorem faulty_iff {fault : LexicalFault} {c : Char} {cs : List Char} :
    Faulty fault (c :: cs) ↔ Text.isBlank c = false ∧ Lexeme.read c cs = .error fault := by
  refine ⟨Faulty.read, fun ⟨hblank, h⟩ => ?_⟩
  cases Lexeme.start c with
  | punctuation s _ hread =>
    rw [hread] at h
    cases h
  | operator alone withEqual _ hread =>
    rw [hread] at h
    cases h
  | word _ hread =>
    rw [hread] at h
    cases h
  | digit hc hread =>
    have hrun : Numeral.IsRun (c :: cs.takeWhile Char.isDigit) :=
      ⟨List.cons_ne_nil _ _, List.forall_mem_cons.2 ⟨hc, fun d => List.mem_takeWhile_imp⟩⟩
    rw [hread, Lexeme.number, Numeral.ofDigits_eq_value] at h
    split at h
    · cases h
    · rename_i hnone
      cases h
      have hlarge := Numeral.word?_eq_none_iff.1 hnone
      have hend : ∀ d ∈ (cs.dropWhile Char.isDigit).head?, d.isDigit = false := fun d hd => by
        have hhead := List.head?_dropWhile_not Char.isDigit cs
        rw [hd] at hhead
        simpa using hhead
      have hfault := Faulty.integerTooLarge hrun hend (by omega)
      rwa [List.cons_append, List.takeWhile_append_dropWhile] at hfault
  | quote hc hread =>
    rw [hread, Lexeme.string] at h
    split at h
    · cases h
    · rename_i hnone
      cases h
      exact .unterminated hc ((string?_eq_none_iff hc).1 hnone)
  | stray hread =>
    rw [hread] at h
    cases h
    exact .unexpected hblank (not_spelled_of_stray hread)

theorem Faulty.exists_cons {fault : LexicalFault} {cs : List Char} (h : Faulty fault cs) :
    ∃ c ds, cs = c :: ds := by
  cases h with
  | unexpected => exact ⟨_, _, rfl⟩
  | @integerTooLarge ds rest hds _ _ =>
    obtain ⟨d, es, rfl⟩ := List.exists_cons_of_ne_nil hds.1
    exact ⟨d, es ++ rest, rfl⟩
  | unterminated => exact ⟨_, _, rfl⟩

/-! ## texts that are refused -/

theorem Scans.lex_of_faulty {fault : LexicalFault} {before after : String}
    {tokens : List Located} (h : Scans 0 before.toList tokens after.toList)
    (hfault : Faulty fault after.toList) :
    lex (before ++ after) = .error (.lexical fault before.utf8ByteSize) := by
  obtain ⟨c, cs, hchars⟩ := hfault.exists_cons
  rw [hchars] at hfault
  obtain ⟨hblank, hread⟩ := hfault.read
  rw [h.lex_append, hchars, lexFrom_of_fault hblank hread]
  rfl

/-- a text is refused at the byte of a character of its own, up to which it is a text of tokens, and
where a fault starts; and wherever reading comes to a fault, the text is refused there -/
theorem lex_error_at_fault (text : String) :
    (∀ e, lex text = .error e → ∃ fault before after tokens,
        text = before ++ after ∧ after ≠ "" ∧ e = .lexical fault before.utf8ByteSize ∧
        lex before = .ok ⟨tokens, before.utf8ByteSize⟩ ∧
        Scans 0 before.toList tokens after.toList ∧ Faulty fault after.toList) ∧
      ∀ fault before after tokens, text = before ++ after →
        Scans 0 before.toList tokens after.toList → Faulty fault after.toList →
        lex text = .error (.lexical fault before.utf8ByteSize) := by
  constructor
  · intro e he
    obtain ⟨before, tokens, c, rest, fault, htext, hscans, hblank, hread, rfl⟩ :=
      exists_scans_of_error (map_eq_error_iff.1 he)
    obtain ⟨before, rfl⟩ : ∃ s : String, before = s.toList := ⟨_, String.toList_ofList.symm⟩
    obtain ⟨after, hafter⟩ : ∃ s : String, c :: rest = s.toList := ⟨_, String.toList_ofList.symm⟩
    have hfault : Faulty fault (c :: rest) := faulty_iff.2 ⟨hblank, hread⟩
    have hsome : after ≠ "" := by
      rintro rfl
      cases hafter
    rw [hafter] at htext hscans hfault
    refine ⟨fault, before, after, tokens, ?_, hsome, ?_, hscans.lex_before, hscans, hfault⟩
    · rw [← String.toList_inj, String.toList_append, htext]
    · rw [Nat.zero_add, byteLength_toList]
  · rintro fault before after tokens rfl hscans hfault
    exact hscans.lex_of_faulty hfault

/-- behind a letter of two bytes, a quote that only an escaped one seems to close -/
def unclosed : String := "x='é' y=\"it\\\""

theorem lex_error_at_fault_unclosed :
    ∃ before after tokens, unclosed = before ++ after ∧ before.utf8ByteSize = 9 ∧
      lex before = .ok ⟨tokens, 9⟩ ∧ Scans 0 before.toList tokens after.toList ∧
      Faulty .unterminated after.toList ∧ lex unclosed = .error (.lexical .unterminated 9) := by
  have hlex : lex unclosed = .error (.lexical .unterminated 9) := by decide +kernel
  obtain ⟨hrefused, hreached⟩ := lex_error_at_fault unclosed
  obtain ⟨fault, before, after, tokens, htext, -, herror, hbefore, hscans, hfault⟩ :=
    hrefused _ hlex
  have hagain := hreached fault before after tokens htext hscans hfault
  injection herror with hsame hbytes
  subst hsame
  rw [← hbytes] at hbefore hagain
  exact ⟨before, after, tokens, htext, hbytes.symm, hbefore, hscans, hfault, hagain⟩

end TableStore.Sql
