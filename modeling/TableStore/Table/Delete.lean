import TableStore.Table.Find

/-!
# Deleting rows

Rows go one at a time, the last first, so that no row still to be looked at moves; then every index
is rebuilt from the rows that are left.

* `Table.delete`   removes the matching rows and counts them.
-/

namespace TableStore

namespace Table

/-- one row less in each column, up to the first that has no such row -/
def removeAll (pos : Nat) : List Column → Outcome (List Column) Unit
  | [] => .ok () []
  | c :: cs =>
    match c.remove pos with
    | .ok c => (removeAll pos cs).within (c :: ·)
    | .error e => .fail e (c :: cs)

/-- without the row at a position; the indexes stay as they are -/
def removeRow (t : Table) (pos : Nat) : Outcome Table Unit :=
  ((removeAll pos t.columns).within fun cs => { t with columns := cs }).andThen fun _ u =>
    .ok () { u with rowCount := u.rowCount - 1 }

/-- removes the satisfying rows below a position, the last first, and counts them -/
def removeMatching (p : Predicate) : Nat → Table → Outcome Table Nat
  | 0, t => .ok 0 t
  | pos + 1, t =>
    if t.satisfies p pos then
      (t.removeRow pos).andThen fun _ u => (removeMatching p pos u).map (· + 1)
    else removeMatching p pos t

/-- rebuilds indexes from the rows, up to the first that fails -/
def rebuildAll (t : Table) : List Index → Outcome (List Index) Unit
  | [] => .ok () []
  | i :: is =>
    match t.schema.position? i.column with
    | none => .fail (.internal (.strayIndex i.column)) (i :: is)
    | some column =>
      let o := i.rebuild ((List.range t.rowCount).map (t.valueAt column))
      match o.answer with
      | .ok () => (t.rebuildAll is).within (o.state :: ·)
      | .error e => .fail e (o.state :: is)

def rebuildIndexes (t : Table) : Outcome Table Unit :=
  (t.rebuildAll t.indexes).within fun is => { t with indexes := is }

def clear (t : Table) : Table :=
  { t with columns := t.columns.map .clear, rowCount := 0, indexes := t.indexes.map .clear }

/-- removes the matching rows, or all of them, and counts them -/
def delete (t : Table) : Option Condition → Outcome Table Nat
  | none => .ok t.rowCount t.clear
  | some c =>
    match t.predicate c with
    | .error e => .fail e t
    | .ok p =>
      (removeMatching p t.rowCount t).andThen fun n u =>
        if n > 0 then u.rebuildIndexes.map fun _ => n else .ok n u

end Table

end TableStore
