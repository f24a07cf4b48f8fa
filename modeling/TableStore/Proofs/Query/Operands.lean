import TableStore.Proofs.Query.Join

/-!
# The operands of `ON` in either order

The operands are tried in the order in which they are written, and then the other way round. Where
one of them names its table, at most one of the two tries can succeed, and so it does not matter
which comes first.

* `Join.operands?`            the columns that two references mean, the first of the left table and
                              the second of the right one;
* `Join.operands?_exclusive`  they are not found both ways;
* `Join.columns_exchange`     so the columns that are compared are the same, or none is found;
* `Database.select_exchange`  and queries answer alike with the operands in either order.
-/

namespace TableStore

open Sql

/-- the same clause with the operands of `ON` in the other order -/
def Sql.JoinClause.exchange (j : JoinClause) : JoinClause :=
  { j with left := j.right, right := j.left }

namespace Join

variable {l r : Table} {x y : ColumnRef}

/-- the columns that two references mean, the first of the left table and the second of the right -/
def operands? (l r : Table) (x y : ColumnRef) : Option (Nat × Nat) :=
  (l.resolve? x).bind fun i => (r.resolve? y).map fun k => (i, k)

theorem columns_eq (l r : Table) (j : JoinClause) :
    columns l r j = match (operands? l r j.left j.right).or (operands? l r j.right j.left) with
      | some p => .ok p
      | none => .error (.column (.unrelated j.left j.right l.name r.name)) := by
  unfold columns operands?
  cases l.resolve? j.left <;> cases r.resolve? j.right <;> cases l.resolve? j.right <;>
    cases r.resolve? j.left <;> rfl

/-- a reference with a table means a column of one table only -/
theorem resolve?_eq_none (hne : l.name ≠ r.name) (hx : x.table ≠ none) :
    l.resolve? x = none ∨ r.resolve? x = none := by
  unfold Table.resolve?
  by_cases h : x.columnIn? l.name = none
  · rw [h]
    exact Or.inl rfl
  · rw [ColumnRef.columnIn?_eq_none hx hne h]
    exact Or.inr rfl

/-- where one operand names its table, the operands are not found both ways -/
theorem operands?_exclusive (hne : l.name ≠ r.name) (h : x.table ≠ none ∨ y.table ≠ none) :
    operands? l r x y = none ∨ operands? l r y x = none := by
  have hnone (x y : ColumnRef) (hx : x.table ≠ none) :
      operands? l r x y = none ∨ operands? l r y x = none := by
    unfold operands?
    rcases resolve?_eq_none hne hx with hl | hr
    · rw [hl]
      exact Or.inl rfl
    · rw [hr]
      exact Or.inr (Option.bind_eq_none_iff.2 fun _ _ => rfl)
  rcases h with hx | hy
  · exact hnone x y hx
  · exact (hnone y x hy).symm

/-- the columns that are compared are the same in either order, or none is found in both -/
theorem columns_exchange (hne : l.name ≠ r.name) {j : JoinClause}
    (h : j.left.table ≠ none ∨ j.right.table ≠ none) :
    SameKind (columns l r j) (columns l r j.exchange) := by
  have hor : (operands? l r j.right j.left).or (operands? l r j.left j.right)
      = (operands? l r j.left j.right).or (operands? l r j.right j.left) := by
    rcases operands?_exclusive hne h with hnone | hnone
    · rw [hnone, Option.or_none, Option.none_or]
    · rw [hnone, Option.or_none, Option.none_or]
  rw [columns_eq, columns_eq]
  dsimp only [JoinClause.exchange]
  rw [hor]
  cases (operands? l r j.left j.right).or (operands? l r j.right j.left) with
  | none => exact .error rfl
  | some p => exact .ok p

/-- the clause decides about the columns that are compared, and about nothing else -/
theorem ofTables_exchange {q q' : Select} {j : JoinClause}
    (hprojection : q'.projection = q.projection) (hcondition : q'.condition = q.condition)
    (h : j.left.table ≠ none ∨ j.right.table ≠ none) :
    SameKind (ofTables l r q j) (ofTables l r q' j.exchange) := by
  unfold ofTables
  rw [hprojection, hcondition]
  by_cases hne : l.name = r.name
  · rw [if_pos hne, if_pos hne]
    exact .refl _
  · rw [if_neg hne, if_neg hne]
    have hcolumns := columns_exchange hne h
    generalize columns l r j = c at hcolumns ⊢
    generalize columns l r j.exchange = c' at hcolumns ⊢
    cases hcolumns with
    | error hkind => exact .error hkind
    | ok p => exact .refl _

end Join

namespace Database

/-- a query with a join, one of whose operands names its table, answers alike with the operands in
the other order, or fails in the same way -/
theorem select_exchange (db : Database) {q : Select} {j : JoinClause} (hjoin : q.join = some j)
    (h : j.left.table ≠ none ∨ j.right.table ≠ none) :
    SameKind (db.select q) (db.select { q with join := some j.exchange }) := by
  unfold select Join.run
  rw [hjoin]
  dsimp only [JoinClause.exchange]
  cases db.table q.table with
  | error e => exact .refl _
  | ok l =>
    dsimp only
    cases db.table j.table with
    | error e => exact .refl _
    | ok r => exact Join.ofTables_exchange rfl rfl h

/-- the bare name means the column of the left table, whether it is written last or first -/
theorem select_exchange_shop :
    (shop []).select receipts = .ok ⟨["mail", "orders.total"], [[.text "c@x", .int 10]]⟩ ∧
      (shop []).select
          { receipts with join := some ⟨"orders", ⟨none, "id"⟩, ⟨some "orders", "buyer"⟩⟩ }
        = .ok ⟨["mail", "orders.total"], [[.text "c@x", .int 10]]⟩ := by
  have hanswer : (shop []).select receipts
      = .ok ⟨["mail", "orders.total"], [[.text "c@x", .int 10]]⟩ := by decide +kernel
  have hsame := select_exchange (shop []) (q := receipts) rfl (by decide)
  rw [hanswer] at hsame
  exact ⟨hanswer, hsame.eq_ok⟩

end Database

end TableStore
