import TableStore.Proofs.Coercion
import TableStore.Proofs.Database.Reachable
import TableStore.Proofs.Document.RoundTrip
import TableStore.Proofs.Sql.Grammar
import TableStore.Proofs.Sql.Spelling

/-!
# Rows as statements write them

Every value but the empty one can be written as a text between quotes, whatever its type: the column
that it goes to brings the text back to its type.

* `Value.literal`          a value as a statement writes it;
* `Sql.insertion`          the statement that inserts values into a table;
* `Sql.ofText_insertion`   what the statement asks for: the values as texts;
* `coerce?_written`        where a type holds a value, the text stands for it;
* `Table.insert_written`   so a table does of the texts what it does of the values;
* `Database.execute_insertion`   the statement inserts the values.
-/

namespace TableStore

open Sql

/-- a value as a statement writes it: nothing as `NULL`, all else as text between quotes -/
def Value.literal : Value → String
  | .null => "NULL"
  | v => "'" ++ String.ofList (escaped '\'' v.plain.toList) ++ "'"

/-- the value that is read where that one was written -/
def Value.written : Value → Value
  | .null => .null
  | v => .text v.plain

namespace Sql

/-- the statement that inserts values into a table -/
def insertion (table : String) (values : List Value) : String :=
  "INSERT INTO " ++ table ++ " VALUES (" ++ ", ".intercalate (values.map Value.literal) ++ ")"

/-! ## the tokens of the statement -/

/-- a value is written as one token -/
theorem exists_spelled_literal (v : Value) :
    ∃ t : Token, t.Spelled v.literal.toList ∧ Phrase.Literal v.written t ∧
      ∀ c, isNameRest c = false → t.goesOn c = false := by
  have htext (s : String) : (Token.string s).Spelled
      ("'" ++ String.ofList (escaped '\'' s.toList) ++ "'").toList := by
    simp only [String.toList_append, String.toList_ofList]
    exact .string s (.inl rfl)
  cases v with
  | null => exact ⟨.keyword .null, .keyword rfl, .null, fun c hc => hc⟩
  | int n => exact ⟨_, htext _, .string _, fun _ _ => rfl⟩
  | text s => exact ⟨_, htext _, .string _, fun _ _ => rfl⟩
  | bool b => exact ⟨_, htext _, .string _, fun _ _ => rfl⟩

/-- values with commas between them are read as their literals -/
theorem reads_literals (v : Value) (vs : List Value) {rest : List Char} {ts : List Token}
    (hrest : ∀ c ∈ rest.head?, isNameRest c = false) (h : Reads rest ts) :
    ∃ us, Phrase.Separated (Phrase.Single Phrase.Literal) ((v :: vs).map Value.written) us ∧
      Reads ([',', ' '].intercalate ((v :: vs).map (·.literal.toList)) ++ rest) (us ++ ts) := by
  induction vs generalizing v with
  | nil =>
    obtain ⟨t, hspelled, hliteral, hends⟩ := exists_spelled_literal v
    refine ⟨[t], .one (.single hliteral), ?_⟩
    rw [List.map_singleton, List.intercalate_singleton]
    exact h.token hspelled fun c hc => hends c (hrest c hc)
  | cons w vs ih =>
    obtain ⟨t, hspelled, hliteral, hends⟩ := exists_spelled_literal v
    obtain ⟨us, hus, hreads⟩ := ih w
    refine ⟨[t] ++ .symbol .comma :: us, .more (.single hliteral) hus, ?_⟩
    -- a comma is no part of a name, so the value ends before it
    have hcomma := hreads.beforeBlank (.symbol .comma) (c := ' ') (by decide)
    have hvalue := hcomma.token hspelled fun c hc => by
      obtain rfl : ',' = c := Option.some.inj hc
      exact hends ',' rfl
    rw [List.map_cons, List.map_cons, List.intercalate_cons_cons, List.append_assoc,
      List.append_assoc]
    exact hvalue

/-- the characters of the statement -/
theorem toList_insertion (table : String) (values : List Value) :
    (insertion table values).toList
      = Keyword.insert.spelling.toList ++ ' ' :: (Keyword.into.spelling.toList ++ ' ' ::
          (table.toList ++ ' ' :: (Keyword.values.spelling.toList ++ ' ' :: ('(' ::
            ([',', ' '].intercalate (values.map (·.literal.toList)) ++ [')']))))) := by
  have hinsert : "INSERT INTO ".toList
      = Keyword.insert.spelling.toList ++ ' ' :: (Keyword.into.spelling.toList ++ [' ']) := by
    decide
  have hvalues : " VALUES (".toList = ' ' :: (Keyword.values.spelling.toList ++ [' ', '(']) := by
    decide
  have hcomma : ", ".toList = [',', ' '] := by decide
  have hclose : ")".toList = [')'] := by decide
  unfold insertion
  simp only [String.toList_append, String.toList_intercalate, List.map_map, Function.comp_def]
  simp only [hinsert, hvalues, hcomma, hclose]
  simp only [List.append_assoc, List.cons_append, List.nil_append]

/-- the statement is read as a phrase that inserts the values as they were written -/
theorem lex_insertion {table : String} (htable : IsName table) (v : Value) (vs : List Value) :
    ∃ l, lex (insertion table (v :: vs)) = .ok l ∧
      Phrase.Command (.insert table none ((v :: vs).map Value.written)) (words l.tokens) := by
  have hclose : Reads [')'] [.symbol .rightParen] :=
    reads_nil.token (.symbol .rightParen) fun c hc => by cases hc
  obtain ⟨us, hus, hvalues⟩ := reads_literals v vs (fun c hc => by
    obtain rfl : ')' = c := Option.some.inj hc
    rfl) hclose
  have hopen := hvalues.token (.symbol .leftParen) fun _ _ => rfl
  have hkeyword (k : Keyword) {rest : List Char} {ts : List Token} (h : Reads rest ts) :
      Reads (k.spelling.toList ++ ' ' :: rest) (.keyword k :: ts) :=
    h.beforeBlank (.keyword k.spelled_spelling) (by decide)
  have htail := (hkeyword .values hopen).beforeBlank (.identifier htable) (c := ' ') (by decide)
  have hall := hkeyword .insert (hkeyword .into htail)
  rw [show Symbol.leftParen.spelling.toList = ['('] by decide, List.singleton_append,
    ← toList_insertion] at hall
  obtain ⟨l, hl, hwords, -⟩ := hall.lex
  exact ⟨l, hl, hwords ▸ .insert table .none hus⟩

/-- the statement asks for an insertion of the values as they were written -/
theorem ofText_insertion {table : String} (htable : IsName table) (v : Value) (vs : List Value) :
    Statement.ofText (insertion table (v :: vs))
      = .ok (.insert table none ((v :: vs).map Value.written)) := by
  obtain ⟨l, hl, hcommand⟩ := lex_insertion htable v vs
  have hend : Grammar.AtEnd [] := fun t ht => by cases ht
  have hleads := Grammar.leads_statement hcommand trivial hend
  unfold Statement.ofText
  rw [hl]
  exact Parser.parse_of_leads hleads (.inl rfl) (List.append_nil _).symm

end Sql

/-! ## what columns and tables make of the texts -/

/-- where a type holds the value, the text stands for it -/
theorem coerce?_written {t : DataType} {v : Value} (h : t.holds v = true) :
    t.coerce? v.written = some v := by
  cases v with
  | null => rfl
  | int n => exact coerce?_text_plain (congrArg some (of_decide_eq_true h))
  | text s => exact coerce?_text_plain (congrArg some (of_decide_eq_true h))
  | bool b => exact coerce?_text_plain (congrArg some (of_decide_eq_true h))

/-- named values in the order of the columns make the row of these values -/
theorem Row.ofPairs_zip {columns : List String} (hn : columns.Nodup) {values : List Value}
    (hlen : values.length = columns.length) :
    ofPairs columns (columns.zip values) = .ok ⟨columns, values⟩ := by
  have hvalues : columns.map (fun c => ((columns.zip values).lookup c).getD .null) = values := by
    refine List.ext_getElem (by rw [List.length_map, hlen]) fun i hi hi' => ?_
    rw [List.length_map] at hi
    rw [List.getElem_map, Keyed.lookup_zip hn hlen.symm (List.getElem?_eq_getElem hi)
      (List.getElem?_eq_getElem hi'), Option.getD_some]
  rw [ofPairs_ok hn (fun e he => (List.of_mem_zip he).1) (Keyed.keys_zip hn hlen.symm), hvalues]

namespace Table

variable {t : Table} {values : List Value}

theorem prepareAll_map {ds : List ColumnDef} {f : Value → Value}
    (h : List.Forall₂ (fun d v => d.type.coerce? (f v) = some v) ds values) :
    prepareAll ds (values.map f) = .ok values := by
  induction h with
  | nil => rfl
  | @cons d v ds vs hcoerce _ ih =>
    rw [List.map_cons, prepareAll, prepare_eq_ok_iff.2 hcoerce]
    dsimp only
    rw [ih]
    rfl

/-- a key is written as a text when there is one -/
theorem lacksKey?_written (columns : List String) :
    t.lacksKey? ⟨columns, values.map Value.written⟩ = t.lacksKey? ⟨columns, values⟩ := by
  have hget (name : String) : (((Row.mk columns (values.map Value.written)).get? name).getD
      .null).isNull = (((Row.mk columns values).get? name).getD .null).isNull := by
    unfold Row.get?
    cases Row.position? columns name with
    | none => rfl
    | some i =>
      simp only [Option.bind_some, List.getElem?_map]
      cases values[i]? with
      | none => rfl
      | some v => cases v <;> rfl
  unfold lacksKey?
  simp only [hget]

/-- a table does of the texts what it does of the values -/
theorem insert_written (hv : t.schema.Valid)
    (h : List.Forall₂ (fun d v => d.type.holds v) t.schema.columns values) :
    t.insert (t.schema.names.zip (values.map Value.written))
      = t.insert (t.schema.names.zip values) := by
  have hlen : values.length = t.schema.names.length := by
    unfold Schema.names
    rw [List.length_map, h.length_eq]
  have htexts : prepareAll t.schema.columns (values.map Value.written) = .ok values :=
    prepareAll_map (h.imp fun _ _ => coerce?_written)
  have hvalues : prepareAll t.schema.columns values = .ok values := by
    have hid := prepareAll_map (f := id) (h.imp fun _ _ => coerce?_of_holds)
    rwa [List.map_id] at hid
  have haccept : t.accept (t.schema.names.zip (values.map Value.written))
      = t.accept (t.schema.names.zip values) := by
    unfold accept
    rw [Row.ofPairs_zip hv.names hlen, Row.ofPairs_zip hv.names (by rw [List.length_map, hlen])]
    simp only [lacksKey?_written, htexts, hvalues]
  unfold insert
  rw [haccept]

end Table

/-! ## the statement in a database -/

namespace Database

variable {db : Database}

/-- in every database that can be reached, a statement that writes values of the types of the
columns does what the table does of the values -/
theorem execute_insertion (h : db.Reachable) {name : String} {t : Table}
    (ht : db.table? name = some t) (hname : IsName name) {values : List Value}
    (hvalues : List.Forall₂ (fun d v => d.type.holds v) t.schema.columns values) :
    db.execute (insertion name values)
      = ((t.insert (t.schema.names.zip values)).within (db.replace name)).map .inserted := by
  obtain ⟨c, hstores, -⟩ := h.sound.stores ht
  have hv : t.schema.Valid := hstores.schema ▸ hstores.valid
  -- a schema has a column, so there is something between the parentheses
  obtain ⟨v, vs, rfl⟩ : ∃ v vs, values = v :: vs := by
    refine List.exists_cons_of_ne_nil fun hnil => hv.nonempty ?_
    rw [hnil] at hvalues
    exact List.forall₂_nil_right_iff.1 hvalues
  have hlen : t.schema.names.length = ((v :: vs).map Value.written).length := by
    unfold Schema.names
    rw [List.length_map, List.length_map, hvalues.length_eq]
  unfold execute
  rw [ofText_insertion hname]
  show (db.insertValues name none ((v :: vs).map Value.written)).map Answer.inserted = _
  unfold insertValues onTable table
  rw [ht]
  dsimp only [Option.getD_none]
  rw [if_pos hlen, Table.insert_written hv hvalues]

/-- the least number, and a quote and a backslash in an address -/
def awkward : List Value := [.int Int64.minValue, .text "it's \\n"]

theorem execute_insertion_users :
    insertion "users" awkward
        = "INSERT INTO users VALUES ('-9223372036854775808', 'it\\'s \\\\n')" ∧
      ∃ t, users.table? "users" = some t ∧
        users.execute (insertion "users" awkward)
          = ((t.insert (t.schema.names.zip awkward)).within (users.replace "users")).map .inserted ∧
        (t.insert (t.schema.names.zip awkward)).answer = .ok ⟨["id", "mail"], awkward⟩ := by
  have hname : IsName "users" := by
    refine ⟨⟨'u', "sers".toList, rfl, by decide, List.all_eq_true.1 (by decide)⟩, fun k => ?_⟩
    cases k <;> decide
  have hanswer : (users.table? "users").map (fun t =>
        (t.schema.columns, (t.insert (t.schema.names.zip awkward)).answer))
      = some ([⟨"id", .int, true, true⟩, ⟨"mail", .text, false, true⟩],
          .ok ⟨["id", "mail"], awkward⟩) := by decide +kernel
  obtain ⟨t, ht, hsome⟩ := Option.map_eq_some_iff.1 hanswer
  obtain ⟨hcolumns, hrow⟩ := Prod.mk.inj hsome
  have hvalues : List.Forall₂ (fun d v => d.type.holds v) t.schema.columns awkward := by
    rw [hcolumns]
    exact .cons rfl (.cons rfl .nil)
  exact ⟨by decide +kernel, t, ht, execute_insertion reachable_users ht hname hvalues, hrow⟩

end Database

end TableStore
