/-!
# Entries in the order of their keys

* `Keyed.ofList`   the entries of a list sorted by key, the last one of each key.
-/

namespace TableStore.Keyed

variable {α : Type}

/-- one more entry, unless its key is there -/
def add (k : String) (v : α) : List (String × α) → List (String × α)
  | [] => [(k, v)]
  | e :: es =>
    if k < e.1 then (k, v) :: e :: es
    else if k = e.1 then e :: es
    else e :: add k v es

/-- the entries of a list sorted by key, the last one of each key -/
def ofList (entries : List (String × α)) : List (String × α) :=
  entries.foldr (fun e es => add e.1 e.2 es) []

example : ofList [("b", 1), ("a", 2), ("b", 3)] = [("a", 2), ("b", 3)] := by decide

end TableStore.Keyed
