import TableStore.Proofs.Outcome
import TableStore.Proofs.Sql.Lexeme

/-!
# A text is its blanks and its lexemes

* `Splits before text tokens`   `text`, which stands after `before`, is blanks and lexemes in turn,
  and `tokens` are the tokens of the lexemes, each with the byte where its lexeme starts;
* `splits_of_lex`               what `lex` answers is such a cut of the whole text.
-/

namespace TableStore.Sql

/-- each lexeme is the text of one token, and no shorter than what goes on as long as it can -/
inductive Splits : String → String → List Located → Prop where
  | done {before blanks : String} (hblanks : ∀ c ∈ blanks.toList, Text.isBlank c = true) :
    Splits before blanks []
  | next {before blanks lexeme rest : String} {token : Token} {tokens : List Located}
    (hblanks : ∀ c ∈ blanks.toList, Text.isBlank c = true)
    (hlexeme : lexeme ≠ "")
    (alone : lex lexeme = .ok ⟨[⟨token, 0⟩], lexeme.utf8ByteSize⟩)
    (longest : ∀ run, Greedy run → run <+: (lexeme ++ rest).toList → run.length ≤ lexeme.length)
    (hrest : Splits (before ++ blanks ++ lexeme) rest tokens) :
    Splits before (blanks ++ lexeme ++ rest)
      (⟨token, (before ++ blanks).utf8ByteSize⟩ :: tokens)

namespace Splits

variable {before text : String} {tokens : List Located}

theorem blank {c : Char} (hc : Text.isBlank c = true)
    (h : Splits (before ++ String.singleton c) text tokens) :
    Splits before (String.singleton c ++ text) tokens := by
  have hblanks {blanks : String} (hs : ∀ d ∈ blanks.toList, Text.isBlank d = true) :
      ∀ d ∈ (String.singleton c ++ blanks).toList, Text.isBlank d = true := by
    rw [String.toList_append, String.toList_singleton]
    exact List.forall_mem_cons.2 ⟨hc, hs⟩
  cases h with
  | done hs => exact done (hblanks hs)
  | @next _ blanks lexeme rest token tokens hs hlexeme alone longest hrest =>
    have hbefore : before ++ String.singleton c ++ blanks
        = before ++ (String.singleton c ++ blanks) := String.append_assoc
    rw [hbefore] at hrest ⊢
    rw [← String.append_assoc, ← String.append_assoc]
    exact next (hblanks hs) hlexeme alone longest hrest

theorem lexeme {c : Char} {cs : List Char} {l : Lexeme} (hl : Lexeme.read c cs = .ok l)
    (hc : Text.isBlank c = false)
    (h : Splits (before ++ String.ofList l.chars) (String.ofList l.rest) tokens) :
    Splits before (String.ofList (c :: cs)) (⟨l.token, before.utf8ByteSize⟩ :: tokens) := by
  have htakes : l.chars ++ l.rest = c :: cs := (Lexeme.takes_read hl).append
  have hlexeme : String.ofList l.chars ≠ "" := by
    obtain ⟨ds, hchars, -⟩ := Lexeme.takes_read hl
    rw [hchars]
    exact fun hempty => List.cons_ne_nil c ds (String.ofList_eq_empty_iff.1 hempty)
  have alone := lex_alone hc hl
  rw [byteLength_eq] at alone
  have longest : ∀ run, Greedy run →
      run <+: (String.ofList l.chars ++ String.ofList l.rest).toList →
      run.length ≤ (String.ofList l.chars).length := by
    intro run hrun hstarts
    rw [← String.ofList_append, String.toList_ofList, htakes] at hstarts
    rw [String.length_ofList]
    exact Lexeme.length_le_of_read hl hrun hstarts
  have hnext := @next before "" _ _ _ _ (List.forall_mem_nil _) hlexeme alone longest
    (by rwa [String.append_empty])
  rw [String.append_empty, String.empty_append, ← String.ofList_append, htakes] at hnext
  exact hnext

/-- the bytes where the tokens start, and the one where the text stops -/
def marks (before text : String) (tokens : List Located) : List Nat :=
  tokens.map (·.offset) ++ [before.utf8ByteSize + text.utf8ByteSize]

theorem marks_next (before blanks lexeme rest : String) (token : Token) (tokens : List Located) :
    marks before (blanks ++ lexeme ++ rest) (⟨token, (before ++ blanks).utf8ByteSize⟩ :: tokens)
      = (before ++ blanks).utf8ByteSize :: marks (before ++ blanks ++ lexeme) rest tokens := by
  have hstop : before.utf8ByteSize + (blanks ++ lexeme ++ rest).utf8ByteSize
      = (before ++ blanks ++ lexeme).utf8ByteSize + rest.utf8ByteSize := by
    simp only [String.utf8ByteSize_append]
    omega
  rw [marks, hstop]
  rfl

theorem le_of_mem_marks (h : Splits before text tokens) :
    ∀ n ∈ marks before text tokens, before.utf8ByteSize ≤ n := by
  induction h with
  | done => exact List.forall_mem_singleton.2 (Nat.le_add_right _ _)
  | next _ _ _ _ _ ih =>
    simp only [String.utf8ByteSize_append] at ih
    rw [marks_next, String.utf8ByteSize_append]
    exact List.forall_mem_cons.2 ⟨Nat.le_add_right _ _, fun n hn => by have := ih n hn; omega⟩

theorem ascending (h : Splits before text tokens) :
    (marks before text tokens).Pairwise (· < ·) := by
  induction h with
  | done => exact List.pairwise_singleton _ _
  | @next before blanks lexeme rest token tokens _ hlexeme _ _ hrest ih =>
    have hpos : lexeme.utf8ByteSize ≠ 0 := fun h => hlexeme (String.utf8ByteSize_eq_zero_iff.1 h)
    rw [marks_next]
    refine List.Pairwise.cons (fun n hn => ?_) ih
    have hle := hrest.le_of_mem_marks n hn
    rw [String.utf8ByteSize_append] at hle
    omega

end Splits

/-- a text that gives tokens is cut into blanks and lexemes -/
theorem splits_of_lexFrom {offset : Nat} {cs : List Char} {tokens : List Located}
    (h : lexFrom offset cs = .ok tokens) {before : String}
    (hbefore : before.utf8ByteSize = offset) : Splits before (String.ofList cs) tokens := by
  fun_induction lexFrom offset cs generalizing before tokens with
  | case1 =>
    cases h
    exact .done (List.forall_mem_nil _)
  | case2 offset c cs hc ih =>
    rw [String.ofList_cons]
    refine .blank hc (ih h ?_)
    rw [String.utf8ByteSize_append, hbefore, String.utf8ByteSize_singleton]
  | case3 => cases h
  | case4 offset c cs hc l hl _ ih =>
    obtain ⟨tokens, htokens, rfl⟩ := map_eq_ok_iff.1 h
    subst hbefore
    refine .lexeme hl (eq_false_of_ne_true hc) (ih htokens ?_)
    rw [String.utf8ByteSize_append, byteLength_eq]

/-- the tokens of a text are those of its lexemes, each where its lexeme starts, up to the end -/
theorem lex_splits {text : String} {l : TokenList} (h : lex text = .ok l) :
    Splits "" text l.tokens ∧ l.stop = text.utf8ByteSize ∧
      (l.tokens.map (·.offset) ++ [l.stop]).Pairwise (· < ·) := by
  obtain ⟨tokens, htokens, rfl⟩ := map_eq_ok_iff.1 h
  have hsplits : Splits "" text tokens := by
    have := splits_of_lexFrom htokens String.utf8ByteSize_empty
    rwa [String.ofList_toList] at this
  have hstop : byteLength text.toList = text.utf8ByteSize := by
    rw [byteLength_eq, String.ofList_toList]
  refine ⟨hsplits, hstop, ?_⟩
  have := hsplits.ascending
  rwa [Splits.marks, String.utf8ByteSize_empty, Nat.zero_add, ← hstop] at this

/-- an escaped quote and letters of two bytes between quotes, then digits and a name that touch -/
def adjacent : String := "age<=\t'é\\'é'12b "

theorem lex_splits_adjacent :
    ∃ l, lex adjacent = .ok l ∧
      l.tokens = [⟨.identifier "age", 0⟩, ⟨.symbol .lessEqual, 3⟩, ⟨.string "é'é", 6⟩,
        ⟨.number 12, 14⟩, ⟨.identifier "b", 16⟩] ∧
      Splits "" adjacent l.tokens ∧ l.stop = adjacent.utf8ByteSize ∧
      (l.tokens.map (·.offset) ++ [l.stop]).Pairwise (· < ·) := by
  have hlex : lex adjacent = .ok ⟨[⟨.identifier "age", 0⟩, ⟨.symbol .lessEqual, 3⟩,
      ⟨.string "é'é", 6⟩, ⟨.number 12, 14⟩, ⟨.identifier "b", 16⟩], 18⟩ := by decide +kernel
  exact ⟨_, hlex, rfl, lex_splits hlex⟩

end TableStore.Sql
