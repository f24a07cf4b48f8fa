import Mathlib.Order.Bounds.Defs
import TableStore.Proofs.Outcome
import TableStore.Proofs.Sql.Grammar

/-!
# The first token that does not fit

* `Allows`        a sentence begins with these tokens and goes on with this one, or ends there;
* `MisfitAt`      the place of the first token with which no sentence begins;
* `Miscounts`     an insertion of more or fewer values than it names columns;
* `Grammar.parse_error_at_misfit`   a text that is no statement fails at its first misfit.

The count of an insertion is checked when all of it has been read, so up to there an insertion of
any number of values is a sentence. `Grammar.uncounted` reads those too.
-/

namespace TableStore.Sql

/-! ## places of misfits -/

/-- some sentence begins with the tokens and goes on with `next`, or ends where there is none -/
def Allows (us : List Token) (next : Option Token) : Prop :=
  ∃ s vs, Sentence s (us ++ vs) ∧ vs.head? = next

/-- the place of the first token, or of the end, with which no sentence begins -/
def MisfitAt (us : List Token) (k : Nat) : Prop := IsLeast {k | ¬ Allows (us.take k) us[k]?} k

theorem getElem?_length_append (us vs : List Token) : (us ++ vs)[us.length]? = vs.head? := by
  rw [List.getElem?_append_right (Nat.le_refl _), Nat.sub_self, ← List.head?_eq_getElem?]

theorem misfitAt_append {us vs : List Token} {s : Statement} {ws : List Token}
    (h : Sentence s (us ++ ws)) (hmisfit : ¬ Allows us vs.head?) :
    MisfitAt (us ++ vs) us.length := by
  constructor
  · rw [Set.mem_ofPred_eq, List.take_left, getElem?_length_append]
    exact hmisfit
  · intro k hk
    by_contra hlt
    rw [Nat.not_le] at hlt
    apply hk
    rw [List.take_append_of_le_length hlt.le, List.getElem?_append_left hlt]
    refine ⟨s, us.drop k ++ ws, ?_, ?_⟩
    · rwa [← List.append_assoc, List.take_append_drop]
    · rw [List.head?_append, List.head?_drop, List.getElem?_eq_getElem hlt]
      rfl

/-- an insertion, read up to its closing parenthesis, of other than as many values as it names
columns; its values begin at byte `start` -/
inductive Miscounts : List Located → Nat → Nat → Nat → Prop where
  | insert {before after rest : List Located} {paren : Located} {table : String}
    {names : List String} {values : List Value}
    (hhead : Phrase.Heading (table, some names) (words before))
    (htail : Phrase.Tuple values (words (paren :: after)))
    (hne : names.length ≠ values.length) :
    Miscounts (before ++ (paren :: after ++ rest)) names.length values.length paren.offset

theorem Miscounts.head? {ts : List Located} {m n start : Nat} (h : Miscounts ts m n start) :
    (words ts).head? = some (.keyword .insert) := by
  obtain @⟨before, _, _, _, _, _, _, hhead, -, -⟩ := h
  rw [words_append]
  generalize words before = us at hhead
  cases hhead
  rfl

theorem Phrase.TypeAwaited.head? {column : String} {us : List Token}
    (h : Phrase.TypeAwaited column us) : us.head? = some (.keyword .create) := by
  cases h
  rfl

/-- the error at a name that stands where a type has to come next -/
inductive UnknownType : List Token → Option Token → Error → Prop where
  | unknownType {column : String} {us : List Token} (h : Phrase.TypeAwaited column us)
    (type : String) :
    UnknownType us (some (.identifier type)) (.schema (.unknownType type column))

namespace Grammar

open TableStore.Sql.Parser Phrase

/-! ## insertions of any number of values -/

/-- an insertion of any number of values -/
def insertion : Parser Statement := insertWith fun table columns values _ =>
  return .insert table columns values

/-- a statement, its values not counted -/
def uncounted : Parser Statement := statementWith insertion

theorem predictive_insertion {own : List Token → Option Token → Error → Prop} :
    insertion.Predictive Command own := by
  apply predictive_insertHead.bind
  intro head us hhead
  show (insertTail >>= _).Predictive _ _
  apply predictive_insertTail.bind
  intro values vs hvalues
  apply predictive_pure
  rw [List.append_nil]
  exact command_insert_iff.2 ⟨us, vs, rfl, hhead, hvalues⟩

theorem predictive_uncounted : uncounted.Predictive Command UnknownType := by
  have hcommand (s : Statement) (us : List Token) (h : Command s us ∧ s.Balanced) :
      Command s us := h.1
  apply Predictive.peek
  intro t
  split
  · refine (predictive_createTable fun table column type specs ts hts _ => ?_).imp hcommand
    exact .unknownType (.column table hts) type
  · exact predictive_select.imp hcommand
  · exact predictive_insertion
  · exact predictive_update.imp hcommand
  · exact predictive_delete.imp hcommand
  · exact predictive_refuse ⟨_, _, .delete "" .none⟩

theorem predictive_closing {s : Statement} {us : List Token} (h : Command s us)
    {own : List Token → Option Token → Error → Prop} :
    (closing s).Predictive (fun s' vs => Sentence s' (us ++ vs)) own := by
  apply Predictive.optional
  · exact predictive_ended (.closed h)
  · apply predictive_ended
    rw [List.append_nil]
    exact .bare h

theorem predictive_sentence : (uncounted >>= closing).Predictive Sentence UnknownType :=
  predictive_uncounted.bind fun _ _ h => predictive_closing h

/-! ## sentences are read -/

theorem leads_uncounted {s : Statement} {us vs : List Token} (h : Command s us) (hvs : AtEnd vs) :
    uncounted.Leads (us ++ vs) s vs := by
  refine leads_statementWith h hvs ?_
  rintro table columns values rfl
  exact leads_insertWith h fun _ => leads_pure _ vs

/-- where the parser fails whatever comes after a token, no sentence goes on with that token -/
theorem not_allows_of_balks {us : List Token} {next : Option Token}
    (h : ∀ vs, vs.head? = next → (uncounted >>= closing).Balks (us ++ vs) fun _ => True) :
    ¬ Allows us next := by
  rintro ⟨s, vs, hsentence, hvs⟩
  let text : TokenList := ⟨(us ++ vs).map fun t => ⟨t, 0⟩, 0⟩
  have hwords : words text.tokens = us ++ vs := by
    simp [text, words, Function.comp_def]
  have hparse : uncounted.parse text = .ok s :=
    parse_of_sentence (hwords ▸ hsentence) fun us vs => leads_uncounted
  obtain ⟨e, -, he⟩ := h vs hvs text.stop text.tokens hwords
  rw [parse_eq, he] at hparse
  cases hparse

/-! ## counting -/

theorem run_statementWith {p : Parser Statement} {ts : List Located}
    (h : (words ts).head? = some (.keyword .insert)) (stop : Nat) :
    (statementWith p).run stop ts = p.run stop ts := by
  obtain ⟨⟨token, start⟩, ts, rfl, rfl⟩ := exists_of_head? h
  rfl

theorem run_statementWith_congr {p q : Parser Statement} {stop : Nat} {ts : List Located}
    (h : p.run stop ts = q.run stop ts) :
    (statementWith p).run stop ts = (statementWith q).run stop ts := by
  simp only [statementWith, run_bind, peek]
  split
  case h_3 => exact h
  all_goals rfl

theorem miscounts_or (stop : Nat) (ts : List Located) :
    (∃ m n start, Miscounts ts m n start) ∨ insert.run stop ts = insertion.run stop ts := by
  rw [insert_eq]
  rcases insertWith_cases stop ts with ⟨e, he⟩ |
    ⟨before, paren, after, rest, table, columns, values, rfl, hhead, htail⟩
  · exact Or.inr ((he _).trans (he _).symm)
  · unfold insertion
    rw [run_insertWith hhead htail, run_insertWith hhead htail]
    rcases balanced_or table columns values with hbalanced | ⟨names, rfl, hne⟩
    · exact Or.inr (by rw [counted_of_balanced hbalanced])
    · exact Or.inl ⟨_, _, _, .insert hhead htail hne⟩

theorem run_of_miscounts {ts : List Located} {m n start : Nat} (h : Miscounts ts m n start)
    (stop : Nat) : statement.run stop ts = .error (.parse (.values m) (.values n) start) := by
  rw [statement_eq, run_statementWith h.head?, insert_eq]
  obtain ⟨hhead, htail, hne⟩ := h
  rw [run_insertWith hhead htail, counted_of_ne hne]
  rfl

/-- where the count is not to blame, whole texts fail alike with it and without -/
theorem fails_uncounted {text : TokenList} {e : Error} (hparse : statement.parse text = .error e)
    (hcount : ∀ m n start, ¬ Miscounts text.tokens m n start) :
    (uncounted >>= closing).run text.stop text.tokens = .error e := by
  have hrun : statement.run text.stop text.tokens = uncounted.run text.stop text.tokens := by
    refine run_statementWith_congr ((miscounts_or text.stop text.tokens).resolve_left ?_)
    rintro ⟨m, n, start, h⟩
    exact hcount m n start h
  rw [parse_congr hrun, parse_eq] at hparse
  exact map_eq_error_iff.1 hparse

/-! ## types of columns -/

theorem balks_columnSpec (column type : String) (vs : List Token) :
    columnSpec.Balks (.identifier column :: .identifier type :: vs)
      (· = .schema (.unknownType type column)) := by
  refine (leads_identifier column _).balks (Balks.bind ?_ _)
  exact (leads_peek _).balks fun stop xs _ => ⟨_, rfl, rfl⟩

/-- the columns before are read, and the one whose type is unknown is reported -/
theorem balks_columns {specs : List ColumnSpec} {ts : List Token}
    (h : Followed Phrase.Column specs ts) (column type : String) (vs : List Token) :
    (commaSeparated columnSpec).Balks (ts ++ .identifier column :: .identifier type :: vs)
      (· = .schema (.unknownType type column)) := by
  induction h with
  | nil => exact (balks_columnSpec column type vs).commaSeparated
  | cons hspec _ ih =>
    rw [List.append_assoc, List.cons_append]
    refine (leads_columnSpec hspec ?_).balks_commaSeparated ih
    rintro t ⟨⟩
    rfl

theorem balks_of_unknownType {us : List Token} {next : Option Token} {e : Error}
    (h : UnknownType us next e) {vs : List Token} (hvs : vs.head? = next) :
    uncounted.Balks (us ++ vs) (· = e) := by
  obtain ⟨⟨table, hts⟩, type⟩ := h
  obtain ⟨ws, rfl⟩ : ∃ ws, vs = .identifier type :: ws := ⟨vs.tail, List.eq_cons_of_mem_head? hvs⟩
  simp only [List.cons_append, List.append_assoc, List.nil_append]
  refine (leads_peek _).balks ?_
  refine (leads_exactly _ _).balks ?_
  refine (leads_exactly _ _).balks ?_
  refine (leads_identifier table _).balks ?_
  refine (leads_exactly _ _).balks ?_
  exact (balks_columns hts _ type ws).bind _

/-! ## errors of whole texts -/

/-- an insertion that is complete but for its count fails where its values begin, whatever follows.
Any other text that is no statement fails at its first misfit, with its place and its name, or says
that a name there is not the type of a column. -/
theorem parse_error_at_misfit (text : TokenList) :
    (∀ m n start, Miscounts text.tokens m n start →
      statement.parse text = .error (.parse (.values m) (.values n) start)) ∧
    ∀ e, statement.parse text = .error e → (∀ m n start, ¬ Miscounts text.tokens m n start) →
      ∃ k ≤ text.tokens.length, MisfitAt (words text.tokens) k ∧
        (∀ column type, TypeAwaited column ((words text.tokens).take k) →
          (words text.tokens)[k]? = some (.identifier type) →
            e = .schema (.unknownType type column)) ∧
        ((∀ column type, TypeAwaited column ((words text.tokens).take k) →
          (words text.tokens)[k]? ≠ some (.identifier type)) →
            ∃ expected, e = .parse expected (foundIn (text.tokens.drop k))
              (offsetOf text.stop (text.tokens.drop k))) := by
  constructor
  · intro m n start h
    unfold parse
    rw [run_of_miscounts h]
  · intro e hparse hcount
    -- the parser that does not count fails with the same error, and where no sentence goes on
    have hfail := fails_uncounted hparse hcount
    obtain ⟨xs, rest, hts, ⟨s, ws, hsentence⟩, hbalks, herror⟩ := predictive_sentence.fails hfail
    have hwords : words text.tokens = words xs ++ words rest := by
      rw [hts, words_append]
    have hlen : (words xs).length = xs.length := List.length_map _
    have htake : (words text.tokens).take xs.length = words xs := by
      rw [hwords, ← hlen, List.take_left]
    have hnext : (words text.tokens)[xs.length]? = (words rest).head? := by
      rw [hwords, ← hlen, getElem?_length_append]
    have hdrop : text.tokens.drop xs.length = rest := by
      rw [hts, List.drop_left]
    refine ⟨xs.length, ?_, ?_, ?_, ?_⟩
    · rw [hts, List.length_append]
      exact Nat.le_add_right _ _
    · rw [hwords, ← hlen]
      exact misfitAt_append hsentence (not_allows_of_balks hbalks)
    · intro column type hawaited htype
      rw [htake] at hawaited
      rw [hnext] at htype
      have hbalks' := (balks_of_unknownType (.unknownType hawaited type) htype).bind closing
      obtain ⟨_, rfl, hschema⟩ := hbalks' text.stop text.tokens hwords
      exact Except.error.inj (hfail.symm.trans hschema)
    · intro hnone
      rw [htake, hnext] at hnone
      rw [hdrop]
      refine herror.resolve_right ?_
      generalize (words rest).head? = next at hnone
      rintro ⟨hawaited, type⟩
      exact hnone _ type hawaited rfl

/-- `DELETE FROM t x` -/
def strayName : TokenList where
  tokens := [⟨.keyword .delete, 0⟩, ⟨.keyword .from, 7⟩, ⟨.identifier "t", 12⟩,
    ⟨.identifier "x", 14⟩]
  stop := 15

/-- `INSERT INTO t (a) VALUES (1, 2) x` -/
def secondValue : TokenList where
  tokens := [⟨.keyword .insert, 0⟩, ⟨.keyword .into, 7⟩, ⟨.identifier "t", 12⟩,
    ⟨.symbol .leftParen, 14⟩, ⟨.identifier "a", 15⟩, ⟨.symbol .rightParen, 16⟩,
    ⟨.keyword .values, 18⟩, ⟨.symbol .leftParen, 25⟩, ⟨.number 1, 26⟩, ⟨.symbol .comma, 27⟩,
    ⟨.number 2, 29⟩, ⟨.symbol .rightParen, 30⟩, ⟨.identifier "x", 32⟩]
  stop := 33

/-- the name after the table is the misfit, and the parenthesis before the values is to blame for
their number -/
theorem parse_error_at_strayName :
    statement.parse secondValue = .error (.parse (.values 1) (.values 2) 25) ∧
      statement.parse strayName
        = .error (.parse .endOfStatement (.token (.identifier "x")) 14) ∧
      ∃ k ≤ 4, MisfitAt (words strayName.tokens) k ∧
        foundIn (strayName.tokens.drop k) = .token (.identifier "x") ∧
        offsetOf strayName.stop (strayName.tokens.drop k) = 14 := by
  have hcount : Miscounts secondValue.tokens 1 2 25 := by
    have hhead : Heading ("t", some ["a"]) (words (secondValue.tokens.take 7)) :=
      .insert "t" (.names (.one (.single (.identifier "a"))))
    have htail : Tuple [.int 1, .int 2] (words ((secondValue.tokens.drop 7).take 5)) :=
      .values (.more (.single (.number 1)) (.one (.single (.number 2))))
    exact .insert hhead htail (by decide)
  have hparse : statement.parse strayName
      = .error (.parse .endOfStatement (.token (.identifier "x")) 14) := rfl
  have hcounted (m n start : Nat) (h : Miscounts strayName.tokens m n start) : False := by
    cases h.head?
  have hnoColumn (k : Nat) (column : String)
      (h : TypeAwaited column ((words strayName.tokens).take k)) : False := by
    have hcreate := h.head?
    rw [List.head?_take] at hcreate
    split at hcreate <;> cases hcreate
  obtain ⟨k, hk, hmisfit, -, herror⟩ :=
    (parse_error_at_misfit strayName).2 _ hparse hcounted
  obtain ⟨expected, he⟩ := herror fun column type h => (hnoColumn k column h).elim
  obtain ⟨-, hfound, hoffset⟩ := Error.parse.inj he
  exact ⟨(parse_error_at_misfit secondValue).1 1 2 25 hcount, hparse, k, hk, hmisfit, hfound.symm,
    hoffset.symm⟩

end Grammar

end TableStore.Sql
