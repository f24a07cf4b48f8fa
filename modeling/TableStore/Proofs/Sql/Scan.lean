import TableStore.Proofs.Sql.Segments
import TableStore.Proofs.Sql.Spelling

/-!
# A text read up to a place

* `Scans offset before tokens rest`   what is read from the byte `offset` on has come past `before`,
                                      found `tokens` there, and goes on with `rest`;
* `Scans.lexFrom_append`, `lex_append`
                                      the tokens of the whole are those, and then those of `rest`;
* `Scans.cut`                         the same is read with less after it;
* `exists_scans_of_error`             a text that is refused is read up to the lexeme at fault.
-/

namespace TableStore.Sql

/-- blanks and lexemes in turn, each lexeme read with all that follows it in sight -/
inductive Scans : Nat → List Char → List Located → List Char → Prop where
  | here (offset : Nat) (rest : List Char) : Scans offset [] [] rest
  | blank {offset : Nat} {c : Char} {before rest : List Char} {tokens : List Located}
    (hc : Text.isBlank c = true) (h : Scans (offset + c.utf8Size) before tokens rest) :
    Scans offset (c :: before) tokens rest
  | lexeme {offset : Nat} {c : Char} {cs before rest : List Char} {tokens : List Located}
    {l : Lexeme} (hl : Lexeme.read c cs = .ok l) (hrest : l.rest = before ++ rest)
    (h : Scans (offset + byteLength l.chars) before tokens rest) :
    Scans offset (l.chars ++ before) (⟨l.token, offset⟩ :: tokens) rest

theorem byteLength_cons (c : Char) (cs : List Char) :
    byteLength (c :: cs) = c.utf8Size + byteLength cs := rfl

theorem byteLength_append (cs ds : List Char) :
    byteLength (cs ++ ds) = byteLength cs + byteLength ds := by
  induction cs with
  | nil => exact (Nat.zero_add _).symm
  | cons c cs ih =>
    rw [List.cons_append, byteLength_cons, byteLength_cons, ih]
    omega

namespace Scans

section
variable {offset : Nat} {before rest : List Char} {tokens : List Located}

/-- what has been read does not show in what follows, but for the bytes it takes -/
theorem lexFrom_append (h : Scans offset before tokens rest) :
    lexFrom offset (before ++ rest)
      = (lexFrom (offset + byteLength before) rest).map (tokens ++ ·) := by
  induction h with
  | here offset rest =>
    show lexFrom offset rest = (lexFrom (offset + 0) rest).map fun later => later
    rw [Nat.add_zero]
    cases lexFrom offset rest <;> rfl
  | @blank offset c before rest tokens hc _ ih =>
    rw [List.cons_append, lexFrom, if_pos hc, ih, byteLength_cons, Nat.add_assoc]
  | @lexeme offset c cs before rest tokens l hl hrest _ ih =>
    have htakes : l.chars ++ l.rest = c :: cs := (Lexeme.takes_read hl).append
    rw [List.append_assoc, ← hrest, htakes, lexFrom_of_read (Lexeme.isBlank_of_read hl) hl, hrest,
      ih, byteLength_append, Nat.add_assoc]
    cases lexFrom _ rest <;> rfl

/-- the place is reached in the same way with less after it -/
theorem cut {kept cut : List Char} (h : Scans offset before tokens (kept ++ cut)) :
    Scans offset before tokens kept := by
  generalize hall : kept ++ cut = all at h
  induction h with
  | here offset rest => exact .here offset kept
  | blank hc _ ih => exact .blank hc (ih hall)
  | @lexeme offset c cs before rest tokens l hl hrest _ ih =>
    subst hall
    rw [← List.append_assoc] at hrest
    obtain ⟨ds, _, hread⟩ := Lexeme.read_cut hl hrest
    exact .lexeme (l := ⟨l.token, l.chars, before ++ kept⟩) hread rfl (ih rfl)

end

section
variable {before after : String} {tokens : List Located}

/-- the tokens found come before those of what follows -/
theorem lex_append (h : Scans 0 before.toList tokens after.toList) :
    lex (before ++ after) = (lexFrom before.utf8ByteSize after.toList).map
      fun later => ⟨tokens ++ later, (before ++ after).utf8ByteSize⟩ := by
  have hlex := h.lexFrom_append
  rw [Nat.zero_add, byteLength_toList] at hlex
  rw [lex, byteLength_toList, String.toList_append, hlex]
  cases lexFrom before.utf8ByteSize after.toList <;> rfl

/-- what comes before the place is a text of these tokens -/
theorem lex_before (h : Scans 0 before.toList tokens after.toList) :
    lex before = .ok ⟨tokens, before.utf8ByteSize⟩ := by
  have hcut : Scans 0 before.toList tokens "".toList :=
    Scans.cut (show Scans 0 before.toList tokens ("".toList ++ after.toList) from h)
  have hlex := hcut.lex_append
  rw [String.append_empty, String.toList_empty, lexFrom] at hlex
  rw [hlex]
  show Except.ok (TokenList.mk (tokens ++ []) before.utf8ByteSize) = _
  rw [List.append_nil]

end

end Scans

/-- a text that is refused is read up to a lexeme that cannot be read -/
theorem exists_scans_of_error {offset : Nat} {cs : List Char} {e : Error}
    (h : lexFrom offset cs = .error e) :
    ∃ before tokens c rest fault, cs = before ++ c :: rest ∧
      Scans offset before tokens (c :: rest) ∧ Text.isBlank c = false ∧
      Lexeme.read c rest = .error fault ∧ e = .lexical fault (offset + byteLength before) := by
  fun_induction lexFrom offset cs generalizing e with
  | case1 => cases h
  | case2 offset c cs hc ih =>
    obtain ⟨before, tokens, d, rest, fault, rfl, hscans, hd, hread, rfl⟩ := ih h
    refine ⟨c :: before, tokens, d, rest, fault, rfl, .blank hc hscans, hd, hread, ?_⟩
    rw [byteLength_cons, Nat.add_assoc]
  | case3 offset c cs hc fault hfault =>
    cases h
    exact ⟨[], [], c, cs, fault, rfl, .here offset _, eq_false_of_ne_true hc, hfault, rfl⟩
  | case4 offset c cs hc l hl _ ih =>
    have hrest := map_eq_error_iff.1 h
    obtain ⟨before, tokens, d, rest, fault, hsplit, hscans, hd, hread, rfl⟩ := ih hrest
    have htakes : l.chars ++ l.rest = c :: cs := (Lexeme.takes_read hl).append
    refine ⟨l.chars ++ before, ⟨l.token, offset⟩ :: tokens, d, rest, fault, ?_,
      .lexeme hl hsplit hscans, hd, hread, ?_⟩
    · rw [← htakes, hsplit, List.append_assoc]
    · rw [byteLength_append, Nat.add_assoc]

end TableStore.Sql
