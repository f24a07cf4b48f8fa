import TableStore.Json.Printer
import TableStore.Query.Result

/-!
# Rows as JSON

* `Row.toJson`           one member per column, in column order;
* `QueryResult.toJson`   the labels and the rows; a label that stands twice is written twice.
-/

namespace TableStore

def Json.ofPairs (pairs : List (String × Value)) : Json :=
  .object (pairs.map fun e => (e.1, .ofValue e.2))

/-- a row, in column order -/
def Row.toJson (r : Row) : Json := .ofPairs r.pairs

def QueryResult.toJson (r : QueryResult) : Json :=
  .object [
    ("columns", .array (r.labels.map .string)),
    ("rows", .array (r.labelled.map Row.toJson))]

end TableStore
