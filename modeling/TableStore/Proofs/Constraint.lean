import Mathlib.Data.List.Infix
import TableStore.Column.Def

/-!
# The constraints of a column

A column is written with words after its type. They are read in order, and every word has to belong
to a constraint.

* `ColumnConstraint.words`     the words that write a constraint;
* `ColumnSpec.Writes`          the words of a column write constraints one after the other, in
                               letters of either case;
* `ColumnSpec.meaning`         the column that is written so;
* `constrain_words`            reading the words of constraints sets the flags that these ask for;
* `exists_of_constrain`        and no other words are read to the end;
* `ColumnDef.ofSpec_cases`     so a column is read as what it means, or refused for its words.
-/

namespace TableStore

/-- what is asked of the values of a column -/
inductive ColumnConstraint where
  | primaryKey
  | unique
  deriving DecidableEq

/-- the words that write a constraint -/
def ColumnConstraint.words : ColumnConstraint → List String
  | primaryKey => ["PRIMARY", "KEY"]
  | unique => ["UNIQUE"]

namespace ColumnSpec

/-- the words of a column, in capitals -/
def words (s : ColumnSpec) : List String := s.constraints.map String.toUpper

/-- the words of a column write constraints one after the other -/
def Writes (s : ColumnSpec) (cs : List ColumnConstraint) : Prop :=
  s.words = cs.flatMap ColumnConstraint.words

/-- `PRIMARY KEY` stands among the words -/
def mentionsKey (s : ColumnSpec) : Bool := ["PRIMARY", "KEY"] <:+: s.words

/-- the column that is written: the primary key where `PRIMARY KEY` stands, unique where there is any
constraint -/
def meaning (s : ColumnSpec) : ColumnDef := ⟨s.name, s.type, s.mentionsKey, !s.constraints.isEmpty⟩

/-- a column with a constraint carries an index -/
theorem isConstrained_meaning (s : ColumnSpec) :
    s.meaning.isConstrained = !s.constraints.isEmpty := by
  unfold ColumnDef.isConstrained meaning
  cases hs : s.constraints with
  | nil => simp [mentionsKey, words, hs]
  | cons w ws => simp

end ColumnSpec

/-! ## reading the words -/

namespace ColumnDef

/-- a column under more constraints -/
def under (d : ColumnDef) (cs : List ColumnConstraint) : ColumnDef :=
  { d with
    isPrimaryKey := d.isPrimaryKey || cs.contains .primaryKey
    isUnique := d.isUnique || !cs.isEmpty }

theorem constrain_words (d : ColumnDef) (cs : List ColumnConstraint) :
    d.constrain (cs.flatMap ColumnConstraint.words) = .ok (d.under cs) := by
  induction cs generalizing d with
  | nil => simp [constrain, under]
  | cons c cs ih =>
    rw [List.flatMap_cons]
    cases c with
    | primaryKey =>
      show constrain _ (cs.flatMap ColumnConstraint.words) = _
      rw [ih]
      simp [under]
    | unique =>
      show constrain _ (cs.flatMap ColumnConstraint.words) = _
      rw [ih]
      simp [under]

theorem exists_of_constrain {d d' : ColumnDef} {words : List String}
    (h : d.constrain words = .ok d') :
    ∃ cs : List ColumnConstraint, words = cs.flatMap ColumnConstraint.words := by
  fun_induction constrain d words with
  | case1 => exact ⟨[], rfl⟩
  | case2 d words ih =>
    obtain ⟨cs, rfl⟩ := ih h
    exact ⟨.primaryKey :: cs, rfl⟩
  | case3 => cases h
  | case4 d words ih =>
    obtain ⟨cs, rfl⟩ := ih h
    exact ⟨.unique :: cs, rfl⟩
  | case5 => cases h

theorem schema_of_constrain {d : ColumnDef} {words : List String} {e : Error}
    (h : d.constrain words = .error e) : ∃ fault, e = .schema fault := by
  fun_induction constrain d words with
  | case1 => cases h
  | case2 d words ih => exact ih h
  | case3 =>
    cases h
    exact ⟨_, rfl⟩
  | case4 d words ih => exact ih h
  | case5 =>
    cases h
    exact ⟨_, rfl⟩

end ColumnDef

/-! ## the columns that are written -/

section
variable {s : ColumnSpec} {cs : List ColumnConstraint}

/-- `PRIMARY` is no word but of the primary key -/
theorem ColumnSpec.Writes.mentionsKey_iff (h : s.Writes cs) :
    s.mentionsKey = true ↔ .primaryKey ∈ cs := by
  unfold mentionsKey
  rw [decide_eq_true_iff, h]
  constructor
  · intro hinfix
    have hword : "PRIMARY" ∈ cs.flatMap ColumnConstraint.words := hinfix.subset List.mem_cons_self
    obtain ⟨c, hc, hword⟩ := List.mem_flatMap.1 hword
    cases c with
    | primaryKey => exact hc
    | unique => exact absurd hword (by decide)
  · intro hc
    obtain ⟨before, after, rfl⟩ := List.append_of_mem hc
    rw [List.flatMap_append, List.flatMap_cons]
    exact List.infix_append' _ _ _

/-- a column without words is one without constraints -/
theorem ColumnSpec.Writes.isEmpty_eq (h : s.Writes cs) : s.constraints.isEmpty = cs.isEmpty := by
  have hwords : s.words.isEmpty = s.constraints.isEmpty := List.isEmpty_map
  rw [← hwords, h]
  cases cs with
  | nil => rfl
  | cons c cs => cases c <;> rfl

theorem ColumnSpec.Writes.under_eq (h : s.Writes cs) :
    (ColumnDef.plain s.name s.type).under cs = s.meaning := by
  have hkey : cs.contains .primaryKey = s.mentionsKey := by
    rw [Bool.eq_iff_iff, h.mentionsKey_iff, List.contains_iff_mem]
  unfold ColumnDef.under meaning
  rw [hkey, h.isEmpty_eq]
  rfl

/-- a column is read as what it means, or refused for its words -/
theorem ColumnDef.ofSpec_cases (s : ColumnSpec) :
    ((∃ cs, s.Writes cs) ∧ ofSpec s = .ok s.meaning) ∨
      (¬ ∃ cs, s.Writes cs) ∧ ∃ fault, ofSpec s = .error (.schema fault) := by
  by_cases h : ∃ cs, s.Writes cs
  · refine Or.inl ⟨h, ?_⟩
    obtain ⟨cs, hcs⟩ := h
    show constrain _ s.words = _
    rw [hcs, constrain_words, hcs.under_eq]
  · refine Or.inr ⟨h, ?_⟩
    cases hspec : ofSpec s with
    | error e =>
      obtain ⟨fault, rfl⟩ := schema_of_constrain hspec
      exact ⟨fault, rfl⟩
    | ok d => exact absurd (exists_of_constrain hspec) h

end

end TableStore
