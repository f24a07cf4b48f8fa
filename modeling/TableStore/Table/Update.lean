import TableStore.Table.Find

/-!
# Updating rows

* `Table.assignments`   the assignments of an update, checked one by one;
* `Table.conflict?`     the value that an update would give to two rows of a unique column;
* `Table.update`        the assigned cells of all matching rows, and the number of these rows.
-/

namespace TableStore

structure Assignment where
  column : Nat
  value : Value
  deriving DecidableEq

namespace Table

/-- the assignments that named values mean, after those in `done` -/
def assignments (t : Table) (done : List Assignment) :
    List (String × Value) → Except Error (List Assignment)
  | [] => .ok done
  | (name, v) :: rest =>
    match t.schema.position? name, t.schema.column? name with
    | some column, some d =>
      if done.any (·.column = column) then .error (.column (.assignedTwice name))
      else
        match d.prepare v with
        | .error e => .error e
        | .ok w =>
          if d.isPrimaryKey && w.isNull then .error (.constraint d.name .primaryKeyMissing)
          else t.assignments (done ++ [⟨column, w⟩]) rest
    | _, _ => .error (.column (.unknownIn name t.name))

/-- the failure of an assignment after which two rows would hold one value of a unique column -/
def conflict? (t : Table) (matched : List Nat) (a : Assignment) : Option Error :=
  if a.value.isNull then none
  else
    match t.schema.columns[a.column]?.bind fun d => t.index? d.name with
    | none => none
    | some i =>
      let kept := (i.find a.value).filter (· ∉ matched)
      if matched.any (fun pos => t.valueAt a.column pos ≠ a.value)
          && kept.length + matched.length > 1 then
        some (i.duplicate a.value)
      else none

/-- stores an assigned value in a row and moves its index entry -/
def assign (t : Table) (pos : Nat) (a : Assignment) : Outcome Table Unit :=
  let old := t.valueAt a.column pos
  if old = a.value then .ok () t
  else
    match t.columns[a.column]?, t.schema.columns[a.column]? with
    | some c, some d =>
      match c.set pos a.value with
      | .error e => .fail e t
      | .ok c =>
        let t := { t with columns := t.columns.set a.column c }
        (onIndex d.name (·.move old a.value pos) t.indexes).within fun is =>
          { t with indexes := is }
    | _, _ => .fail (.internal (.columnOutOfBounds a.column)) t

/-- stores the assigned values in the matching rows and counts these -/
def update (t : Table) (pairs : List (String × Value)) (condition : Option Condition) :
    Outcome Table Nat :=
  match t.assignments [] pairs with
  | .error e => .fail e t
  | .ok as =>
    match condition.mapM t.predicate with
    | .error e => .fail e t
    | .ok p =>
      let matched := t.matching p
      match as.findSome? (t.conflict? matched) with
      | some e => .fail e t
      | none =>
        let row (pos : Nat) (u : Table) := Outcome.forEach (fun a u => u.assign pos a) as u
        (Outcome.forEach row matched t).map fun _ => matched.length

end Table

end TableStore
