import TableStore.Document.Decode
import TableStore.Json.RoundTrip
import TableStore.Proofs.Keyed

/-!
# Reading a document that was written

* `Json.entries?_object`     a map with encoded values is read as its sorted entries;
* `Document.Ordered`         maps in the order of their keys, and positions that fit a word, as in
                             every document of a database;
* `Document.ofJson?_toJson`, `ofText?_pretty`   such a document is read back, its rows with their
                             columns sorted.
-/

namespace TableStore

namespace Json

/-! ## lists and maps -/

theorem mapM_map_eq {α β γ : Type} {f : β → Option γ} (g : α → β) (h : α → γ) (xs : List α)
    (hf : ∀ x ∈ xs, f (g x) = some (h x)) : (xs.map g).mapM f = some (xs.map h) := by
  induction xs with
  | nil => rfl
  | cons x xs ih =>
    rw [List.forall_mem_cons] at hf
    rw [List.map_cons, List.mapM_cons, hf.1, ih hf.2]
    rfl

theorem items?_array {α β : Type} {item? : Json → Option β} (encode : α → Json) (decode : α → β)
    {xs : List α} (h : ∀ x ∈ xs, item? (encode x) = some (decode x)) :
    items? item? (.array (xs.map encode)) = some (xs.map decode) :=
  mapM_map_eq encode decode xs h

/-- a map with encoded values is read as its sorted entries -/
theorem entries?_object {α β : Type} {value? : Json → Option β} (encode : α → Json)
    (decode : α → β) {es : List (String × α)}
    (h : ∀ e ∈ es, value? (encode e.2) = some (decode e.2)) :
    entries? value? (.object (es.map fun e => (e.1, encode e.2)))
      = some (Keyed.ofList (es.map fun e => (e.1, decode e.2))) := by
  have hmapM := mapM_map_eq (f := fun m => (value? m.2).map fun v => (m.1, v))
    (fun e => (e.1, encode e.2)) (fun e => (e.1, decode e.2)) es fun e he => by rw [h e he]; rfl
  show ((es.map fun e => (e.1, encode e.2)).mapM fun m =>
    (value? m.2).map fun v => (m.1, v)).map Keyed.ofList = _
  rw [hmapM]
  rfl

/-- a map in the order of its keys is read in that order -/
theorem entries?_ascending {α β : Type} {value? : Json → Option β} (encode : α → Json)
    (decode : α → β) {es : List (String × α)} (hes : Keyed.Ascending es)
    (h : ∀ e ∈ es, value? (encode e.2) = some (decode e.2)) :
    entries? value? (.object (es.map fun e => (e.1, encode e.2)))
      = some (es.map fun e => (e.1, decode e.2)) := by
  have hsorted : Keyed.Ascending (es.map fun e => (e.1, decode e.2)) := List.pairwise_map.2 hes
  rw [entries?_object encode decode h, Keyed.ofList_of_ascending hsorted]

/-- the fields of a record that has them all, and no other -/
theorem fields?_object {names : List String} {ms : List (String × Json)}
    (hnames : ms.map (·.1) = names) (hdiff : names.Nodup) :
    fields? names (.object ms) = some (ms.map fun m => some m.2) := by
  subst hnames
  have honce : ¬ ((ms.map (·.1)).any fun n => 1 < ms.countP fun m => m.1 = n) = true := by
    simp only [List.any_eq_true, decide_eq_true_iff]
    rintro ⟨n, -, hn⟩
    have hcount : (ms.countP fun m => m.1 = n) = (ms.map (·.1)).count n := by
      rw [List.count, List.countP_map]
      rfl
    rw [hcount] at hn
    exact Nat.not_lt_of_le (List.nodup_iff_count_le_one.1 hdiff n) hn
  have hlookup : ((ms.map (·.1)).map fun n => ms.lookup n) = ms.map fun m => some m.2 := by
    rw [List.map_map]
    exact List.map_congr_left fun m hm => Keyed.lookup_of_mem hdiff hm
  show (if (ms.map (·.1)).any fun n => 1 < ms.countP fun m => m.1 = n then none
    else some ((ms.map (·.1)).map fun n => ms.lookup n)) = _
  rw [if_neg honce, hlookup]

/-! ## values -/

theorem value?_ofValue (v : Value) : value? (ofValue v) = some v := by
  cases v with
  | int n =>
    show (Numeral.word? n.toInt).map Value.int = _
    rw [Numeral.word?_toInt]
    rfl
  | _ => rfl

theorem position?_ofNat {n : Nat} (h : n < UInt64.size) : position? (.int (n : Nat)) = some n := by
  have hbound : (0 : Int) ≤ n ∧ (n : Int) < UInt64.size :=
    ⟨Int.natCast_nonneg n, Int.ofNat_lt.2 h⟩
  show (if (0 : Int) ≤ n ∧ (n : Int) < UInt64.size then some (n : Int).toNat else none) = some n
  rw [if_pos hbound]
  rfl

theorem type?_keyword (t : DataType) : type? (.string t.keyword) = some t := by
  cases t <;> rfl

end Json

open Json

/-! ## records -/

theorem ColumnDef.ofJson?_toJson (d : ColumnDef) : ofJson? d.toJson = some d := by
  have hfields : fields? ["name", "type", "primaryKey", "unique"] d.toJson
      = some [some (.string d.name), some (.string d.type.keyword), some (.bool d.isPrimaryKey),
        some (.bool d.isUnique)] := fields?_object rfl (by decide)
  unfold ofJson?
  rw [hfields]
  simp [text?, flag?, type?_keyword]

/-- positions in the order of the values, all of them words -/
structure IndexDocument.Ordered (d : IndexDocument) : Prop where
  keys : Keyed.Ascending d.positions
  words : ∀ e ∈ d.positions, ∀ n ∈ e.2, n < UInt64.size

/-- indexes in the order of the columns -/
structure TableDocument.Ordered (d : TableDocument) : Prop where
  keys : Keyed.Ascending d.indexes
  indexes : ∀ e ∈ d.indexes, e.2.Ordered

/-- tables in the order of their names -/
structure Document.Ordered (d : Document) : Prop where
  keys : Keyed.Ascending d.tables
  tables : ∀ e ∈ d.tables, e.2.Ordered

/-- the same table, the columns of each row in the order of their names -/
def TableDocument.sorted (d : TableDocument) : TableDocument :=
  { d with rows := d.rows.map Keyed.ofList }

/-- the same document, the columns of each row in the order of their names -/
def Document.sorted (d : Document) : Document :=
  { d with tables := d.tables.map fun e => (e.1, e.2.sorted) }

theorem IndexDocument.ofJson?_toJson {d : IndexDocument} (h : d.Ordered) :
    ofJson? d.toJson = some d := by
  have hpositions : entries? (items? position?)
      (.object (d.positions.map fun e => (e.1, ofPositions e.2))) = some d.positions := by
    rw [entries?_ascending ofPositions id h.keys fun e he => ?_]
    · exact congrArg some (List.map_id _)
    · show items? position? (.array (e.2.map fun n => .int (n : Nat))) = some e.2
      rw [items?_array (fun n : Nat => Json.int (n : Nat)) id fun n hn =>
        position?_ofNat (h.words e he n hn), List.map_id]
  have hfields : fields? ["columnName", "isPrimaryKey", "isUnique", "indexMap"] d.toJson
      = some [some (.string d.column), some (.bool d.isPrimaryKey), some (.bool d.isUnique),
        some (.object (d.positions.map fun e => (e.1, ofPositions e.2)))] :=
    fields?_object rfl (by decide)
  unfold ofJson?
  rw [hfields]
  simp [text?, flag?, hpositions]

theorem TableDocument.ofJson?_toJson {d : TableDocument} (h : d.Ordered) :
    ofJson? d.toJson = some d.sorted := by
  have hcolumns : items? ColumnDef.ofJson? (.array (d.columns.map ColumnDef.toJson))
      = some d.columns := by
    rw [items?_array ColumnDef.toJson id fun c _ => c.ofJson?_toJson, List.map_id]
  have hrows : items? (entries? value?) (.array (d.rows.map Json.ofPairs))
      = some (d.rows.map Keyed.ofList) := by
    refine items?_array Json.ofPairs Keyed.ofList fun r _ => ?_
    have hentries := entries?_object ofValue id fun (e : String × Value) (_ : e ∈ r) =>
      value?_ofValue e.2
    exact hentries.trans (congrArg (fun es => some (Keyed.ofList es)) (List.map_id r))
  have hindexes : entries? IndexDocument.ofJson?
      (.object (d.indexes.map fun e => (e.1, e.2.toJson))) = some d.indexes := by
    rw [entries?_ascending IndexDocument.toJson id h.keys fun e he =>
      IndexDocument.ofJson?_toJson (h.indexes e he)]
    exact congrArg some (List.map_id _)
  have hfields : fields? ["name", "columns", "rows", "indexes"] d.toJson
      = some [some (.string d.name), some (.array (d.columns.map ColumnDef.toJson)),
        some (.array (d.rows.map Json.ofPairs)),
        some (.object (d.indexes.map fun e => (e.1, e.2.toJson)))] := fields?_object rfl (by decide)
  unfold ofJson? sorted
  rw [hfields]
  simp [text?, hcolumns, hrows, hindexes]

/-- a document in order is read back, its rows with their columns sorted -/
theorem Document.ofJson?_toJson {d : Document} (h : d.Ordered) :
    ofJson? d.toJson = some d.sorted := by
  have htables : entries? TableDocument.ofJson?
      (.object (d.tables.map fun e => (e.1, e.2.toJson)))
      = some (d.tables.map fun e => (e.1, e.2.sorted)) :=
    entries?_ascending TableDocument.toJson TableDocument.sorted h.keys fun e he =>
      TableDocument.ofJson?_toJson (h.tables e he)
  have hfields : fields? ["name", "tables"] d.toJson
      = some [some (.string d.name), some (.object (d.tables.map fun e => (e.1, e.2.toJson)))] :=
    fields?_object rfl (by decide)
  unfold ofJson? sorted
  rw [hfields]
  simp [text?, htables]

/-- the text of a document in order is read back -/
theorem Document.ofText?_pretty {d : Document} (h : d.Ordered) :
    ofText? d.toJson.pretty = some d.sorted := by
  unfold ofText?
  rw [Json.read?_pretty]
  exact ofJson?_toJson h

end TableStore
