import TableStore.Json.RoundTrip
import TableStore.Proofs.Document.Decode
import TableStore.Proofs.Table.Contents

/-!
# The document of given contents

Maps are written in the order of their keys, so what is written depends on the contents alone.

* `Json.compact_ofValue_injective`   different values have different texts;
* `Index.Tracks.entries_eq`          indexes of the same values have the same entries;
* `Stores.document_eq`               tables with the same contents have the same document.
-/

namespace TableStore

namespace Json

theorem compact_ofValue (v : Value) : (ofValue v).compact = (ofValue v).pretty := by
  cases v <;> rfl

/-- different values have different texts -/
theorem compact_ofValue_injective : Function.Injective fun v => (ofValue v).compact := by
  intro v w h
  have htree : some (ofValue v) = some (ofValue w) := by
    rw [← read?_pretty (ofValue v), ← read?_pretty (ofValue w), ← compact_ofValue,
      ← compact_ofValue]
    exact congrArg read? h
  have hvalue : some v = some w := by
    rw [← value?_ofValue v, ← value?_ofValue w, Option.some.inj htree]
  exact Option.some.inj hvalue

end Json

namespace Index

variable {i i' : Index} {vs : List Value}

/-- no two buckets are written under one text -/
theorem Sound.keys_compact (h : i.Sound) :
    ((i.buckets.map fun b => ((Json.ofValue b.1).compact, b)).map (·.1)).Nodup := by
  have hkeys := h.keys.map Json.compact_ofValue_injective
  rw [List.map_map] at hkeys ⊢
  exact hkeys

theorem Tracks.entries_eq (h : i.Tracks vs) (h' : i'.Tracks vs) : i.entries = i'.entries :=
  Keyed.ofList_perm ((h.perm h').map _) h.sound.keys_compact

theorem Serves.document_eq {d : ColumnDef} (h : i.Serves d vs) (h' : i'.Serves d vs) :
    IndexDocument.ofIndex i = IndexDocument.ofIndex i' := by
  have hclear : i.clear = i'.clear := h.clear.trans h'.clear.symm
  unfold IndexDocument.ofIndex
  rw [show i.column = i'.column from congrArg (·.column) hclear,
    show i.isPrimaryKey = i'.isPrimaryKey from congrArg (·.isPrimaryKey) hclear,
    show i.isUnique = i'.isUnique from congrArg (·.isUnique) hclear,
    h.tracks.entries_eq h'.tracks]

end Index

namespace Table

variable {t u : Table} {c : Contents}

theorem lookup_indexes (t : Table) (column : String) :
    (t.indexes.map fun i => (i.column, i)).lookup column = t.index? column :=
  (Keyed.lookup_map Index.column id t.indexes column).trans Option.map_id_apply

theorem Stores.keys_indexes (h : t.Stores c) :
    ((t.indexes.map fun i => (i.column, i)).map (·.1)).Nodup := by
  rw [List.map_map]
  exact h.indexed.nodup h.valid

/-- tables with the same contents have the same document -/
theorem Stores.document_eq (h : t.Stores c) (h' : u.Stores c) :
    TableDocument.ofTable t = TableDocument.ofTable u := by
  have hindexes : t.sortedIndexes.map (fun e => (e.1, IndexDocument.ofIndex e.2))
      = u.sortedIndexes.map fun e => (e.1, IndexDocument.ofIndex e.2) := by
    apply Keyed.map_ofList_congr h.keys_indexes h'.keys_indexes
    intro column
    rw [lookup_indexes, lookup_indexes]
    rcases h.index?_cases h' column with ⟨hi, hi'⟩ | ⟨i, i', d, vs, hi, hi', hserves, hserves'⟩
    · rw [hi, hi']
    · rw [hi, hi']
      exact congrArg some (hserves.document_eq hserves')
  unfold TableDocument.ofTable
  rw [h.name, h'.name, h.schema, h'.schema, h.rows_eq, h'.rows_eq, hindexes]

end Table

end TableStore
