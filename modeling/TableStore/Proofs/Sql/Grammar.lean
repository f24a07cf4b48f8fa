import Mathlib.Data.Set.Subsingleton
import TableStore.Proofs.Sql.Predictive
import TableStore.Sql.Grammar

/-!
# What the grammar reads

Every parser of the grammar reads the phrases of its kind. It is predictive, so what it takes is one
and it stops at the first token that cannot go on with one (`predictive_columnRef`, ...); and it
takes one where tokens come next that do not go on with it (`leads_columnRef`, ...).

* `Grammar.insertWith_cases`, `Grammar.run_insertWith`   an insertion is read up to its end before
  its values are counted;
* `Grammar.sound_statement`, `Grammar.leads_statement`   what is read as a statement is one, and a
  statement is read to its end;
* `Grammar.parse_eq_ok_iff_sentence`   the texts that the parser accepts are the sentences.
-/

namespace TableStore.Sql.Grammar

open TableStore.Sql.Parser Phrase

variable {own : List Token → Option Token → Error → Prop}

/-! ## single tokens -/

theorem sound_identifier : identifier.Sound (Single Name) := by
  refine sound_take Name fun t name h => ?_
  cases t <;> cases h
  exact .identifier name

theorem predictive_identifier : identifier.Predictive (Single Name) own :=
  predictive_take sound_identifier ⟨"", _, .single (.identifier "")⟩

theorem leads_identifier (name : String) (vs : List Token) :
    identifier.Leads (.identifier name :: vs) name vs := by
  apply leads_take
  rfl

theorem predictive_columnType {column : String}
    (h : ∀ type, own [] (some (.identifier type)) (.schema (.unknownType type column))) :
    (columnType column).Predictive (Single TypeName) own := by
  apply Predictive.peek
  intro t
  have hinhabited : ∃ a us, Single TypeName a us := ⟨.int, _, .single .int⟩
  split
  · rename_i type
    exact predictive_fail hinhabited fun next hnext => hnext rfl ▸ h type
  · refine predictive_take ?_ hinhabited
    refine sound_take TypeName fun t type h => ?_
    split at h
    all_goals cases h
    · exact .int
    · exact .text
    · exact .boolean

theorem leads_columnType (column : String) {type : DataType} {t : Token} (h : TypeName type t)
    (vs : List Token) : (columnType column).Leads (t :: vs) type vs := by
  refine (leads_peek (t :: vs)).bind ?_
  cases h <;> exact leads_take (by rfl) vs

theorem constraintWord?_eq_some_iff {t : Token} {word : String} :
    constraintWord? t = some word ↔ Constraint word t := by
  constructor
  · intro h
    unfold constraintWord? at h
    split at h
    all_goals cases h
    · exact .primary
    · exact .key
    · exact .unique
  · rintro (_ | _ | _) <;> rfl

theorem sound_comparison : comparison.Sound (Single Operator) := by
  refine sound_take Operator fun t op h => ?_
  split at h
  all_goals cases h
  · exact .equal
  · exact .doubleEqual
  · exact .notEqual
  · exact .greater
  · exact .greaterEqual
  · exact .less
  · exact .lessEqual

theorem predictive_comparison : comparison.Predictive (Single Operator) own :=
  predictive_take sound_comparison ⟨.equal, _, .single .equal⟩

theorem leads_comparison {op : Comparison} {t : Token} (h : Operator op t) (vs : List Token) :
    comparison.Leads (t :: vs) op vs := by
  cases h <;> exact leads_take (by rfl) vs

theorem sound_literal : literal.Sound (Single Literal) := by
  refine sound_take Literal fun t value h => ?_
  cases t with
  | number n =>
    cases h
    exact .number n
  | string s =>
    cases h
    exact .string s
  | keyword k =>
    cases k <;> cases h
    exact .null
  | symbol s => cases h
  | identifier name => cases h

theorem predictive_literal : literal.Predictive (Single Literal) own :=
  predictive_take sound_literal ⟨.null, _, .single .null⟩

theorem leads_literal {value : Value} {t : Token} (h : Literal value t) (vs : List Token) :
    literal.Leads (t :: vs) value vs := by
  cases h <;> exact leads_take (by rfl) vs

theorem sound_joinEqual : joinEqual.Sound fun _ us => Single Operator .equal us := by
  intro stop ts _ rest hrun
  obtain ⟨t, rfl, ht⟩ := run_take_eq_ok.1 hrun
  have hop : Operator .equal t.token := by
    split at ht
    · rename_i hequal
      rw [hequal]
      exact .equal
    · rename_i hequal
      rw [hequal]
      exact .doubleEqual
    · cases ht
  exact ⟨[t.token], rfl, .single hop⟩

theorem predictive_joinEqual :
    joinEqual.Predictive (fun _ us => Single Operator .equal us) own :=
  predictive_take sound_joinEqual ⟨(), _, .single .equal⟩

theorem leads_joinEqual {t : Token} (h : Operator .equal t) (vs : List Token) :
    joinEqual.Leads (t :: vs) () vs := by
  cases h <;> exact leads_take (by rfl) vs

/-! ## columns and references -/

theorem predictive_columnSpec (h : ∀ column type, own [.identifier column] (some (.identifier type))
    (.schema (.unknownType type column))) : columnSpec.Predictive Phrase.Column own := by
  apply predictive_identifier.bind
  rintro name _ ⟨⟨name⟩⟩
  apply (predictive_columnType (h name)).bind
  rintro type _ ⟨htype⟩
  apply (predictive_many fun t word => constraintWord?_eq_some_iff.1).bind
  intro words ts hwords
  apply predictive_pure
  rw [List.append_nil]
  exact .column name htype hwords

theorem leads_columnSpec {spec : ColumnSpec} {us vs : List Token} (h : Phrase.Column spec us)
    (hvs : ∀ t ∈ vs.head?, constraintWord? t = none) : columnSpec.Leads (us ++ vs) spec vs := by
  obtain ⟨name, htype, hwords⟩ := h
  have hwords' := hwords.imp fun _ _ => constraintWord?_eq_some_iff.2
  refine (leads_identifier name _).bind ?_
  refine (leads_columnType name htype _).bind ?_
  refine (leads_many hwords' hvs).bind ?_
  exact leads_pure _ vs

theorem predictive_columnRef : columnRef.Predictive Reference own := by
  apply predictive_identifier.bind
  rintro first _ ⟨⟨first⟩⟩
  apply Predictive.optional
  · apply predictive_identifier.bind
    rintro column _ ⟨⟨column⟩⟩
    exact predictive_pure (.qualified first column)
  · exact predictive_pure (.plain first)

theorem leads_columnRef {ref : ColumnRef} {us vs : List Token} (h : Reference ref us)
    (hvs : vs.head? ≠ some (.symbol .dot)) : columnRef.Leads (us ++ vs) ref vs := by
  cases h with
  | plain column =>
    refine (leads_identifier column vs).bind ?_
    exact leads_not_optional hvs (leads_pure _ vs)
  | qualified table column =>
    refine (leads_identifier table _).bind ?_
    refine leads_optional ?_
    refine (leads_identifier column vs).bind ?_
    exact leads_pure _ vs

/-! ## clauses -/

theorem predictive_whereClause : whereClause.Predictive Where own := by
  have hcondition {own : List Token → Option Token → Error → Prop} :
      condition.Predictive (fun k us => Where (some k) (.keyword .where :: us)) own := by
    apply predictive_columnRef.bind
    intro column ts hcolumn
    apply predictive_comparison.bind
    rintro op _ ⟨hop⟩
    apply predictive_literal.bind
    rintro value _ ⟨hvalue⟩
    exact predictive_pure (.condition hcolumn hop hvalue)
  apply Predictive.optional
  · apply hcondition.bind
    intro k us hk
    apply predictive_pure
    rw [List.append_nil]
    exact hk
  · exact predictive_pure .none

theorem leads_whereClause {k : Option Condition} {us vs : List Token} (h : Where k us)
    (hvs : vs.head? ≠ some (.keyword .where)) : whereClause.Leads (us ++ vs) k vs := by
  cases h with
  | none => exact leads_not_optional hvs (leads_pure _ vs)
  | @condition column op value ts t u hcolumn hop hvalue =>
    -- an operator comes after the column, so the column ends there
    have hdot : (t :: u :: vs).head? ≠ some (.symbol .dot) := by
      cases hop <;> simp
    have hcondition : condition.Leads (ts ++ t :: u :: vs) ⟨column, op, value⟩ vs := by
      refine (leads_columnRef hcolumn hdot).bind ?_
      refine (leads_comparison hop _).bind ?_
      refine (leads_literal hvalue vs).bind ?_
      exact leads_pure _ vs
    simp only [List.cons_append, List.append_assoc, List.nil_append]
    exact leads_optional (hcondition.bind (leads_pure _ vs))

theorem predictive_joinClause : joinClause.Predictive Joined own := by
  apply Predictive.optional
  · apply predictive_identifier.bind
    rintro table _ ⟨⟨table⟩⟩
    apply (predictive_exactly _).bind
    rintro _ _ rfl
    apply predictive_columnRef.bind
    intro left ls hl
    apply predictive_joinEqual.bind
    rintro _ _ ⟨ht⟩
    apply predictive_columnRef.bind
    intro right rs hr
    apply predictive_pure
    rw [List.append_nil]
    exact .join table hl ht hr
  · exact predictive_pure .none

theorem leads_joinClause {j : Option JoinClause} {us vs : List Token} (h : Joined j us)
    (hjoin : vs.head? ≠ some (.keyword .join)) (hdot : vs.head? ≠ some (.symbol .dot)) :
    joinClause.Leads (us ++ vs) j vs := by
  cases h with
  | none => exact leads_not_optional hjoin (leads_pure _ vs)
  | @join table left right ls rs t hl ht hr =>
    have hdot' : (t :: (rs ++ vs)).head? ≠ some (.symbol .dot) := by
      cases ht <;> simp
    simp only [List.cons_append, List.append_assoc]
    refine leads_optional ?_
    refine (leads_identifier table _).bind ?_
    refine (leads_exactly (.keyword .on) _).bind ?_
    refine (leads_columnRef hl hdot').bind ?_
    refine (leads_joinEqual ht _).bind ?_
    refine (leads_columnRef hr hdot).bind ?_
    exact leads_pure _ vs

theorem predictive_projection : projection.Predictive Projected own := by
  apply Predictive.optional
  · exact predictive_pure .all
  · apply (Predictive.commaSeparated fun _ _ _ => predictive_columnRef).bind
    intro refs ts hrefs
    apply predictive_pure
    rw [List.append_nil]
    exact .columns hrefs

/-- a list of columns begins with a name -/
theorem head?_references {refs : List ColumnRef} {us : List Token}
    (h : Separated Reference refs us) (vs : List Token) :
    ∃ name, (us ++ vs).head? = some (.identifier name) := by
  have hhead {ref : ColumnRef} {us : List Token} (h : Reference ref us) (vs : List Token) :
      ∃ name, (us ++ vs).head? = some (.identifier name) := by
    cases h with
    | plain column => exact ⟨column, rfl⟩
    | qualified table column => exact ⟨table, rfl⟩
  cases h with
  | one h => exact hhead h vs
  | more h rest =>
    rw [List.append_assoc]
    exact hhead h _

theorem leads_projection {p : Projection} {us vs : List Token} (h : Projected p us)
    (hcomma : vs.head? ≠ some (.symbol .comma)) (hdot : vs.head? ≠ some (.symbol .dot)) :
    projection.Leads (us ++ vs) p vs := by
  cases h with
  | all => exact leads_optional (leads_pure _ vs)
  | columns hrefs =>
    have hstar : (us ++ vs).head? ≠ some (.symbol .star) := by
      obtain ⟨name, hname⟩ := head?_references hrefs vs
      rw [hname]
      simp
    have hlist : (commaSeparated columnRef).Leads (us ++ vs) _ vs :=
      leads_commaSeparated (fun vs => vs.head? ≠ some (.symbol .dot)) leads_columnRef (by simp) hrefs
        hdot hcomma
    exact leads_not_optional hstar (hlist.bind (leads_pure _ vs))

theorem predictive_assignment : assignment.Predictive Assigned own := by
  apply predictive_identifier.bind
  rintro column _ ⟨⟨column⟩⟩
  apply (predictive_exactly _).bind
  rintro _ _ rfl
  apply predictive_literal.bind
  rintro value _ ⟨hvalue⟩
  exact predictive_pure (.assign column hvalue)

theorem leads_assignment {a : String × Value} {us : List Token} (h : Assigned a us)
    (vs : List Token) : assignment.Leads (us ++ vs) a vs := by
  obtain ⟨column, hvalue⟩ := h
  refine (leads_identifier column _).bind ?_
  refine (leads_exactly (.symbol .equal) _).bind ?_
  refine (leads_literal hvalue vs).bind ?_
  exact leads_pure _ vs

theorem predictive_columnNames : columnNames.Predictive Named own := by
  apply Predictive.optional
  · apply (Predictive.commaSeparated fun _ _ _ => predictive_identifier).bind
    intro names ts hnames
    apply (predictive_exactly _).bind
    rintro _ _ rfl
    exact predictive_pure (.names hnames)
  · exact predictive_pure .none

theorem leads_columnNames {names : Option (List String)} {us vs : List Token} (h : Named names us)
    (hvs : vs.head? ≠ some (.symbol .leftParen)) : columnNames.Leads (us ++ vs) names vs := by
  cases h with
  | none => exact leads_not_optional hvs (leads_pure _ vs)
  | @names names ts hnames =>
    have hitem {name : String} {us vs : List Token} (h : Single Name name us) :
        identifier.Leads (us ++ vs) name vs := by
      obtain ⟨⟨name⟩⟩ := h
      exact leads_identifier name vs
    simp only [List.cons_append, List.append_assoc, List.nil_append]
    refine leads_optional ?_
    refine (leads_commaSeparated_closed hitem hnames (by simp)).bind ?_
    refine (leads_exactly (.symbol .rightParen) vs).bind ?_
    exact leads_pure _ vs

/-! ## insertions -/

/-- the beginning of an insertion, up to the keyword `VALUES` -/
def insertHead : Parser (String × Option (List String)) := do
  keyword .insert
  keyword .into
  let table ← identifier
  let columns ← columnNames
  keyword .values
  return (table, columns)

/-- the values of an insertion, in parentheses -/
def insertTail : Parser (List Value) := do
  symbol .leftParen
  let values ← commaSeparated literal
  symbol .rightParen
  return values

/-- an insertion, with what is to be done when all is read -/
def insertWith (finish : String → Option (List String) → List Value → Nat → Parser Statement) :
    Parser Statement := do
  let head ← insertHead
  let start ← offset
  let values ← insertTail
  finish head.1 head.2 values start

/-- an insertion whose values are counted against the columns that it names -/
def counted (table : String) (columns : Option (List String)) (values : List Value) (start : Nat) :
    Parser Statement :=
  match columns with
  | none => return .insert table none values
  | some names =>
    if names.length = values.length then
      return .insert table (some names) values
    else
      fail (.parse (.values names.length) (.values values.length) start)

theorem insert_eq : insert = insertWith counted := by
  unfold insert insertWith insertHead insertTail
  simp only [Parser.bind_assoc, Parser.pure_bind]
  rfl

theorem counted_of_balanced {table : String} {columns : Option (List String)} {values : List Value}
    (h : (Statement.insert table columns values).Balanced) (start : Nat) :
    counted table columns values start = Pure.pure (.insert table columns values) := by
  cases columns with
  | none => rfl
  | some names => exact if_pos h

theorem counted_of_ne {names : List String} {values : List Value}
    (h : names.length ≠ values.length) (table : String) (start : Nat) :
    counted table (some names) values start
      = fail (.parse (.values names.length) (.values values.length) start) := if_neg h

theorem balanced_or (table : String) (columns : Option (List String)) (values : List Value) :
    (Statement.insert table columns values).Balanced ∨
      ∃ names, columns = some names ∧ names.length ≠ values.length := by
  cases columns with
  | none => exact Or.inl trivial
  | some names =>
    by_cases h : names.length = values.length
    · exact Or.inl h
    · exact Or.inr ⟨names, rfl, h⟩

theorem predictive_insertHead : insertHead.Predictive Heading own := by
  apply (predictive_exactly _).bind
  rintro _ _ rfl
  apply (predictive_exactly _).bind
  rintro _ _ rfl
  apply predictive_identifier.bind
  rintro table _ ⟨⟨table⟩⟩
  apply predictive_columnNames.bind
  intro columns ns hcolumns
  apply (predictive_exactly _).bind
  rintro _ _ rfl
  exact predictive_pure (.insert table hcolumns)

theorem leads_insertHead {head : String × Option (List String)} {us : List Token}
    (h : Heading head us) (vs : List Token) : insertHead.Leads (us ++ vs) head vs := by
  obtain ⟨table, hcolumns⟩ := h
  simp only [List.cons_append, List.append_assoc, List.nil_append]
  refine (leads_exactly _ _).bind ?_
  refine (leads_exactly _ _).bind ?_
  refine (leads_identifier table _).bind ?_
  refine (leads_columnNames hcolumns (by simp)).bind ?_
  refine (leads_exactly _ vs).bind ?_
  exact leads_pure _ vs

theorem predictive_insertTail : insertTail.Predictive Tuple own := by
  apply (predictive_exactly _).bind
  rintro _ _ rfl
  apply (Predictive.commaSeparated fun _ _ _ => predictive_literal).bind
  intro values vs hvalues
  apply (predictive_exactly _).bind
  rintro _ _ rfl
  exact predictive_pure (.values hvalues)

theorem leads_insertTail {values : List Value} {us : List Token} (h : Tuple values us)
    (vs : List Token) : insertTail.Leads (us ++ vs) values vs := by
  obtain ⟨hvalues⟩ := h
  have hitem {value : Value} {us vs : List Token} (h : Single Literal value us) :
      literal.Leads (us ++ vs) value vs := by
    obtain ⟨hvalue⟩ := h
    exact leads_literal hvalue vs
  simp only [List.cons_append, List.append_assoc, List.nil_append]
  refine (leads_exactly _ _).bind ?_
  refine (leads_commaSeparated_closed hitem hvalues (by simp)).bind ?_
  refine (leads_exactly _ vs).bind ?_
  exact leads_pure _ vs

/-- an insertion is its beginning and its values -/
theorem command_insert_iff {table : String} {columns : Option (List String)} {values : List Value}
    {us : List Token} : Command (.insert table columns values) us ↔
      ∃ hs ts, us = hs ++ ts ∧ Heading (table, columns) hs ∧ Tuple values ts := by
  constructor
  · rintro (_ | _ | @⟨_, _, _, ns, vs, hcolumns, hvalues⟩ | _ | _)
    exact ⟨_, _, by simp, .insert table hcolumns, .values hvalues⟩
  · rintro ⟨_, _, rfl, ⟨table, hcolumns⟩, ⟨hvalues⟩⟩
    have hcommand := Command.insert table hcolumns hvalues
    simpa using hcommand

theorem leads_insertWith
    {finish : String → Option (List String) → List Value → Nat → Parser Statement}
    {table : String} {columns : Option (List String)} {values : List Value} {s : Statement}
    {us vs ws : List Token} (h : Command (.insert table columns values) us)
    (hfinish : ∀ start, (finish table columns values start).Leads vs s ws) :
    (insertWith finish).Leads (us ++ vs) s ws := by
  obtain ⟨hs, ts, rfl, hhead, htail⟩ := command_insert_iff.1 h
  rw [List.append_assoc]
  refine (leads_insertHead hhead _).bind ?_
  refine leads_offset fun start => ?_
  exact (leads_insertTail htail vs).bind (hfinish start)

theorem leads_insert {table : String} {columns : Option (List String)} {values : List Value}
    {us : List Token} (h : Command (.insert table columns values) us)
    (hbalanced : (Statement.insert table columns values).Balanced) (vs : List Token) :
    insert.Leads (us ++ vs) (.insert table columns values) vs := by
  rw [insert_eq]
  refine leads_insertWith h fun start => ?_
  rw [counted_of_balanced hbalanced]
  exact leads_pure _ vs

/-- an insertion fails before all is read, or has been read up to its end -/
theorem insertWith_cases (stop : Nat) (ts : List Located) :
    (∃ e, ∀ finish, (insertWith finish).run stop ts = .error e) ∨
      ∃ before paren after rest table columns values, ts = before ++ (paren :: after ++ rest) ∧
        Heading (table, columns) (words before) ∧ Tuple values (words (paren :: after)) := by
  have hhead : insertHead.Predictive Heading fun _ _ _ => True := predictive_insertHead
  have htail : insertTail.Predictive Tuple fun _ _ _ => True := predictive_insertTail
  cases hrun : insertHead.run stop ts with
  | error e => exact Or.inl ⟨e, fun finish => run_bind_eq_error.2 (Or.inl hrun)⟩
  | ok r =>
    obtain ⟨⟨table, columns⟩, mid⟩ := r
    cases hrun' : insertTail.run stop mid with
    | error e =>
      refine Or.inl ⟨e, fun finish => run_bind_eq_error.2 (Or.inr ⟨_, mid, hrun, ?_⟩)⟩
      exact run_bind_eq_error.2 (Or.inr ⟨_, mid, rfl, run_bind_eq_error.2 (Or.inl hrun')⟩)
    | ok r =>
      obtain ⟨values, rest⟩ := r
      obtain ⟨before, rfl, hbefore, -⟩ := hhead.reads hrun
      obtain ⟨xs, rfl, hxs, -⟩ := htail.reads hrun'
      obtain ⟨paren, after, rfl⟩ := List.exists_cons_of_ne_nil (l := xs) (by rintro rfl; cases hxs)
      exact Or.inr ⟨before, paren, after, rest, table, columns, values, rfl, hbefore, hxs⟩

/-- what has been read of an insertion up to its end, and where its values begin -/
theorem run_insertWith {before after rest : List Located} {paren : Located} {table : String}
    {columns : Option (List String)} {values : List Value}
    (hhead : Heading (table, columns) (words before)) (htail : Tuple values (words (paren :: after)))
    (finish : String → Option (List String) → List Value → Nat → Parser Statement) (stop : Nat) :
    (insertWith finish).run stop (before ++ (paren :: after ++ rest))
      = (finish table columns values paren.offset).run stop rest := by
  have hrun : insertHead.run stop (before ++ (paren :: after ++ rest))
      = .ok ((table, columns), paren :: after ++ rest) :=
    predictive_insertHead.run_append (leads_insertHead hhead _) stop
  have hrun' : insertTail.run stop (paren :: after ++ rest) = .ok (values, rest) :=
    predictive_insertTail.run_append (leads_insertTail htail _) stop
  unfold insertWith
  rw [run_bind, hrun]
  show (insertTail >>= fun values => finish table columns values paren.offset).run stop _ = _
  rw [run_bind, hrun']

theorem sound_insert : insert.Sound fun s us => Command s us ∧ s.Balanced := by
  intro stop ts s rest hrun
  rw [insert_eq] at hrun
  rcases insertWith_cases stop ts with ⟨e, he⟩ |
    ⟨before, paren, after, rest', table, columns, values, rfl, hhead, htail⟩
  · cases (he counted).symm.trans hrun
  · rw [run_insertWith hhead htail] at hrun
    rcases balanced_or table columns values with hbalanced | ⟨names, rfl, hne⟩
    · rw [counted_of_balanced hbalanced] at hrun
      cases hrun
      refine ⟨words before ++ words (paren :: after), ?_, ?_, hbalanced⟩
      · rw [words_append, words_append, List.append_assoc]
      · exact command_insert_iff.2 ⟨_, _, rfl, hhead, htail⟩
    · rw [counted_of_ne hne] at hrun
      cases hrun

/-! ## statements -/

/-- nothing but a semicolon comes next -/
def AtEnd (vs : List Token) : Prop := ∀ t ∈ vs.head?, t = .symbol .semicolon

theorem AtEnd.ne {vs : List Token} (h : AtEnd vs) {t : Token} (ht : t ≠ .symbol .semicolon) :
    vs.head? ≠ some t := fun he => ht (h t he)

/-- after a condition, or without one, no other clause and no longer name comes next -/
theorem head?_where {k : Option Condition} {ws vs : List Token} (h : Where k ws) (hvs : AtEnd vs)
    {t : Token} (hwhere : t ≠ .keyword .where) (ht : t ≠ .symbol .semicolon) :
    (ws ++ vs).head? ≠ some t := by
  cases h with
  | none => exact hvs.ne ht
  | condition hcolumn hop hvalue =>
    intro he
    exact hwhere (Option.some.inj he).symm

theorem predictive_createTable (h : ∀ (table column type : String) (specs : List ColumnSpec)
      (ts : List Token), Followed Phrase.Column specs ts →
      own (.keyword .create :: .keyword .table :: .identifier table :: .symbol .leftParen :: ts
        ++ [.identifier column]) (some (.identifier type)) (.schema (.unknownType type column))) :
    createTable.Predictive (fun s us => Command s us ∧ s.Balanced) own := by
  apply (predictive_exactly _).bind
  rintro _ _ rfl
  apply (predictive_exactly _).bind
  rintro _ _ rfl
  apply predictive_identifier.bind
  rintro table _ ⟨⟨table⟩⟩
  apply (predictive_exactly _).bind
  rintro _ _ rfl
  have hlist : (commaSeparated columnSpec).Predictive (Separated Phrase.Column) fun ws =>
      own (.keyword .create :: .keyword .table :: .identifier table :: .symbol .leftParen :: ws) := by
    apply Predictive.commaSeparated
    intro specs ts hts
    apply predictive_columnSpec
    intro column type
    exact h table column type specs ts hts
  apply hlist.bind
  intro columns ts hcolumns
  apply (predictive_exactly _).bind
  rintro _ _ rfl
  exact predictive_pure ⟨.createTable table hcolumns, trivial⟩

theorem predictive_select :
    select.Predictive (fun s us => Command s us ∧ s.Balanced) own := by
  apply (predictive_exactly _).bind
  rintro _ _ rfl
  apply predictive_projection.bind
  intro projection ps hprojection
  apply (predictive_exactly _).bind
  rintro _ _ rfl
  apply predictive_identifier.bind
  rintro table _ ⟨⟨table⟩⟩
  apply predictive_joinClause.bind
  intro join js hjoin
  apply predictive_whereClause.bind
  intro condition ws hcondition
  apply predictive_pure
  simp only [List.append_nil, List.cons_append, List.nil_append]
  exact ⟨.select table hprojection hjoin hcondition, trivial⟩

theorem predictive_update :
    update.Predictive (fun s us => Command s us ∧ s.Balanced) own := by
  apply (predictive_exactly _).bind
  rintro _ _ rfl
  apply predictive_identifier.bind
  rintro table _ ⟨⟨table⟩⟩
  apply (predictive_exactly _).bind
  rintro _ _ rfl
  apply (Predictive.commaSeparated fun _ _ _ => predictive_assignment).bind
  intro as ts has
  apply predictive_whereClause.bind
  intro condition ws hcondition
  apply predictive_pure
  simp only [List.append_nil, List.cons_append, List.nil_append]
  exact ⟨.update table has hcondition, trivial⟩

theorem predictive_delete :
    delete.Predictive (fun s us => Command s us ∧ s.Balanced) own := by
  apply (predictive_exactly _).bind
  rintro _ _ rfl
  apply (predictive_exactly _).bind
  rintro _ _ rfl
  apply predictive_identifier.bind
  rintro table _ ⟨⟨table⟩⟩
  apply predictive_whereClause.bind
  intro condition ws hcondition
  apply predictive_pure
  rw [List.append_nil]
  exact ⟨.delete table hcondition, trivial⟩

/-- a statement, with a way of reading insertions -/
def statementWith (insertion : Parser Statement) : Parser Statement := do
  match ← peek with
  | some (.keyword .create) => createTable
  | some (.keyword .select) => select
  | some (.keyword .insert) => insertion
  | some (.keyword .update) => update
  | some (.keyword .delete) => delete
  | _ => refuse .statement

theorem statement_eq : statement = statementWith insert := rfl

/-- the keyword that a statement begins with decides how it is read -/
theorem sound_statement : statement.Sound fun s us => Command s us ∧ s.Balanced := by
  intro stop ts s rest hrun
  obtain ⟨next, mid, hpeek, hrun⟩ := run_bind_eq_ok.1 hrun
  cases hpeek
  split at hrun
  · exact (predictive_createTable fun _ _ _ _ _ _ => trivial).sound stop _ s rest hrun
  · exact predictive_select.sound stop _ s rest hrun
  · exact sound_insert stop _ s rest hrun
  · exact predictive_update.sound stop _ s rest hrun
  · exact predictive_delete.sound stop _ s rest hrun
  · cases hrun

/-! ### statements are read to their end -/

theorem leads_createTable {table : String} {columns : List ColumnSpec} {us : List Token}
    (h : Command (.createTable table columns) us) (vs : List Token) :
    createTable.Leads (us ++ vs) (.createTable table columns) vs := by
  cases h with
  | @createTable _ _ ts hcolumns =>
    -- a column ends where no constraint follows, so before a comma and before the parenthesis
    have hends : ∀ t ∈ (Token.symbol .rightParen :: vs).head?, constraintWord? t = none := by
      rintro t ⟨⟩
      rfl
    have hts : (commaSeparated columnSpec).Leads (ts ++ .symbol .rightParen :: vs) columns
        (.symbol .rightParen :: vs) := by
      refine leads_commaSeparated (fun vs => ∀ t ∈ vs.head?, constraintWord? t = none)
        leads_columnSpec ?_ hcolumns hends (by simp)
      rintro us t ⟨⟩
      rfl
    simp only [List.cons_append, List.append_assoc, List.nil_append]
    refine (leads_exactly _ _).bind ?_
    refine (leads_exactly _ _).bind ?_
    refine (leads_identifier table _).bind ?_
    refine (leads_exactly _ _).bind ?_
    refine hts.bind ?_
    refine (leads_exactly _ vs).bind ?_
    exact leads_pure _ vs

theorem leads_select {q : Select} {us vs : List Token} (h : Command (.select q) us)
    (hvs : AtEnd vs) : select.Leads (us ++ vs) (.select q) vs := by
  cases h with
  | @select projection table join condition ps js ws hprojection hjoin hcondition =>
    have hps : Grammar.projection.Leads
        (ps ++ .keyword .from :: .identifier table :: (js ++ (ws ++ vs))) projection
        (.keyword .from :: .identifier table :: (js ++ (ws ++ vs))) :=
      leads_projection hprojection (by simp) (by simp)
    have hjs := leads_joinClause hjoin (head?_where hcondition hvs (by simp) (by simp))
      (head?_where hcondition hvs (by simp) (by simp))
    simp only [List.cons_append, List.append_assoc]
    refine (leads_exactly _ _).bind ?_
    refine hps.bind ?_
    refine (leads_exactly _ _).bind ?_
    refine (leads_identifier table _).bind ?_
    refine hjs.bind ?_
    refine (leads_whereClause hcondition (hvs.ne (by simp))).bind ?_
    exact leads_pure _ vs

theorem leads_update {table : String} {as : List (String × Value)} {k : Option Condition}
    {us vs : List Token} (h : Command (.update table as k) us) (hvs : AtEnd vs) :
    update.Leads (us ++ vs) (.update table as k) vs := by
  cases h with
  | @update _ _ _ ts ws has hcondition =>
    have hts : (commaSeparated assignment).Leads (ts ++ (ws ++ vs)) as (ws ++ vs) :=
      leads_commaSeparated_closed (fun ha => leads_assignment ha _) has
        (head?_where hcondition hvs (by simp) (by simp))
    simp only [List.cons_append, List.append_assoc]
    refine (leads_exactly _ _).bind ?_
    refine (leads_identifier table _).bind ?_
    refine (leads_exactly _ _).bind ?_
    refine hts.bind ?_
    refine (leads_whereClause hcondition (hvs.ne (by simp))).bind ?_
    exact leads_pure _ vs

theorem leads_delete {table : String} {k : Option Condition} {us vs : List Token}
    (h : Command (.delete table k) us) (hvs : AtEnd vs) :
    delete.Leads (us ++ vs) (.delete table k) vs := by
  cases h with
  | delete _ hcondition =>
    refine (leads_exactly _ _).bind ?_
    refine (leads_exactly _ _).bind ?_
    refine (leads_identifier table _).bind ?_
    refine (leads_whereClause hcondition (hvs.ne (by simp))).bind ?_
    exact leads_pure _ vs

theorem leads_statementWith {insertion : Parser Statement} {s : Statement} {us vs : List Token}
    (h : Command s us) (hvs : AtEnd vs)
    (hinsertion : ∀ table columns values, s = .insert table columns values →
      insertion.Leads (us ++ vs) s vs) : (statementWith insertion).Leads (us ++ vs) s vs := by
  have hpeek := leads_peek (us ++ vs)
  cases h with
  | createTable table hcolumns => exact hpeek.bind (leads_createTable (.createTable table hcolumns) vs)
  | select table hprojection hjoin hcondition =>
    exact hpeek.bind (leads_select (.select table hprojection hjoin hcondition) hvs)
  | insert table hcolumns hvalues => exact hpeek.bind (hinsertion _ _ _ rfl)
  | update table has hcondition =>
    exact hpeek.bind (leads_update (.update table has hcondition) hvs)
  | delete table hcondition => exact hpeek.bind (leads_delete (.delete table hcondition) hvs)

theorem leads_statement {s : Statement} {us vs : List Token} (h : Command s us)
    (hbalanced : s.Balanced) (hvs : AtEnd vs) : statement.Leads (us ++ vs) s vs := by
  rw [statement_eq]
  refine leads_statementWith h hvs ?_
  rintro table columns values rfl
  exact leads_insert h hbalanced vs

/-! ## whole texts -/

/-- a parser that reads the command of a sentence reads the sentence -/
theorem parse_of_sentence {p : Parser Statement} {s : Statement} {text : TokenList}
    (h : Sentence s (words text.tokens))
    (hp : ∀ us vs, Command s us → AtEnd vs → p.Leads (us ++ vs) s vs) : p.parse text = .ok s := by
  generalize hts : words text.tokens = ts at h
  cases h with
  | bare hcommand =>
    have hleads := hp ts [] hcommand (by simp [AtEnd])
    exact parse_of_leads hleads (Or.inl rfl) (by rw [hts, List.append_nil])
  | closed hcommand =>
    have hleads := hp _ [.symbol .semicolon] hcommand (by simp [AtEnd])
    exact parse_of_leads hleads (Or.inr rfl) hts

/-- the parser accepts exactly the sentences that give as many values as they name columns, and
answers with what they mean; no tokens mean two things -/
theorem parse_eq_ok_iff_sentence (text : TokenList) :
    (∀ s, statement.parse text = .ok s ↔ Sentence s (words text.tokens) ∧ s.Balanced) ∧
      {s | Sentence s (words text.tokens) ∧ s.Balanced}.Subsingleton := by
  have hiff (s : Statement) :
      statement.parse text = .ok s ↔ Sentence s (words text.tokens) ∧ s.Balanced := by
    constructor
    · intro hparse
      obtain ⟨us, ⟨hcommand, hbalanced⟩, hus | hus⟩ := sound_parse sound_statement hparse
      · exact ⟨hus ▸ .bare hcommand, hbalanced⟩
      · exact ⟨hus ▸ .closed hcommand, hbalanced⟩
    · rintro ⟨hsentence, hbalanced⟩
      exact parse_of_sentence hsentence fun us vs hcommand => leads_statement hcommand hbalanced
  refine ⟨hiff, ?_⟩
  intro s hs s' hs'
  have hparse := (hiff s).2 hs
  rw [(hiff s').2 hs'] at hparse
  exact (Except.ok.inj hparse).symm

end TableStore.Sql.Grammar
