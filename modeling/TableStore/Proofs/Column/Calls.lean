import Mathlib.Data.List.Basic
import Mathlib.Data.List.Induction
import TableStore.Proofs.Column

/-!
# Calls to a column

A column takes calls in any order, with any value and any position. It keeps payloads and bits
apart, and under an empty cell a payload that nobody asked for; but what it answers is a list of
values.

* `Column.Call`, `Column.after`   everything that changes a column, and the column after calls,
                                  answered or refused;
* `Call.onList?`, `listAfter`     the same calls to a plain list;
* `Reads.call_cases`              one call does to a column what it does to the list it reads as;
* `reads_after`                   and so do any calls;
* `list_after`                    so a column cannot be told from the list.
-/

namespace TableStore

/-! ## values of another type -/

theorem Cells.push?_eq_none {c : Cells} {v : Value} (hv : v.dataType? ≠ some c.dataType) :
    c.push? v = none := by
  cases c <;> cases v <;> first | rfl | exact absurd rfl hv

theorem Cells.set?_eq_none {c : Cells} {v : Value} (pos : Nat)
    (hv : v.dataType? ≠ some c.dataType) : c.set? pos v = none := by
  cases c <;> cases v <;> first | rfl | exact absurd rfl hv

namespace Column

/-- what changes a column -/
inductive Call where
  | push (v : Value)
  | set (pos : Nat) (v : Value)
  | remove (pos : Nat)
  | clear
  deriving DecidableEq

/-- makes a change; one that is refused leaves the column -/
def call (c : Column) : Call → Outcome Column Unit
  | .push v => .ofExcept (c.push v) c
  | .set pos v => .ofExcept (c.set pos v) c
  | .remove pos => .ofExcept (c.remove pos) c
  | .clear => .ok () c.clear

/-- the column after calls, answered or refused -/
def after (c : Column) (calls : List Call) : Column := calls.foldl (fun c k => (c.call k).state) c

/-- what a call makes of a list of values, if its value has the type or is empty, and its place is
there -/
def Call.onList? (t : DataType) (vs : List Value) : Call → Option (List Value)
  | .push v => if v = .null ∨ v.dataType? = some t then some (vs ++ [v]) else none
  | .set pos v =>
    if pos < vs.length ∧ (v = .null ∨ v.dataType? = some t) then some (vs.set pos v) else none
  | .remove pos => if pos < vs.length then some (vs.eraseIdx pos) else none
  | .clear => some []

/-- the list after calls, without those that it does not take -/
def listAfter (t : DataType) (vs : List Value) (calls : List Call) : List Value :=
  calls.foldl (fun vs k => (k.onList? t vs).getD vs) vs

variable {c : Column} {t : DataType} {vs : List Value} {v : Value} {pos : Nat}

/-! ## one call -/

namespace Reads

theorem push_refused (h : c.Reads t vs) (hv : ¬ (v = .null ∨ v.dataType? = some t)) :
    c.push v = .error (.internal (.pushed v t)) := by
  obtain ⟨hnull, htype⟩ := not_or.1 hv
  rw [← h.type] at htype ⊢
  rw [push_of_ne_null c hnull, Cells.push?_eq_none htype]
  rfl

/-- the place is looked at before the value -/
theorem set_refused (h : c.Reads t vs)
    (hv : ¬ (pos < vs.length ∧ (v = .null ∨ v.dataType? = some t))) :
    c.set pos v
      = .error (.internal (if pos < vs.length then .stored v t else .rowOutOfBounds pos)) := by
  rw [← h.length_eq] at hv ⊢
  by_cases hpos : pos < c.length
  · obtain ⟨hnull, htype⟩ := not_or.1 fun hor => hv ⟨hpos, hor⟩
    rw [← h.type] at htype ⊢
    rw [if_pos hpos, set_of_ne_null hpos hnull, Cells.set?_eq_none pos htype]
    rfl
  · unfold Column.set
    rw [if_pos (Nat.not_lt.1 hpos), if_neg hpos]

theorem remove_refused (h : c.Reads t vs) (hpos : ¬ pos < vs.length) :
    c.remove pos = .error (.internal (.rowOutOfBounds pos)) := by
  unfold Column.remove
  rw [h.length_eq, if_pos (Nat.not_lt.1 hpos)]

/-- a call is answered, and does to the column what it does to the list; or the list does not take
it, and the column refuses it and is left as it is -/
theorem call_cases (h : c.Reads t vs) (k : Call) :
    (∃ vs' c', k.onList? t vs = some vs' ∧ c.call k = .ok () c' ∧ c'.Reads t vs') ∨
      (k.onList? t vs = none ∧ ∃ fault, c.call k = .fail (.internal fault) c) := by
  cases k with
  | push v =>
    by_cases hv : v = .null ∨ v.dataType? = some t
    · obtain ⟨c', hpush, hreads⟩ := h.push (DataType.holds_iff.2 hv)
      exact Or.inl ⟨_, c', if_pos hv, by rw [call, hpush]; rfl, hreads⟩
    · exact Or.inr ⟨if_neg hv, _, by rw [call, h.push_refused hv]; rfl⟩
  | set pos v =>
    by_cases hv : pos < vs.length ∧ (v = .null ∨ v.dataType? = some t)
    · obtain ⟨c', hset, hreads⟩ := h.set hv.1 (DataType.holds_iff.2 hv.2)
      exact Or.inl ⟨_, c', if_pos hv, by rw [call, hset]; rfl, hreads⟩
    · exact Or.inr ⟨if_neg hv, _, by rw [call, h.set_refused hv]; rfl⟩
  | remove pos =>
    by_cases hpos : pos < vs.length
    · obtain ⟨c', hremove, hreads⟩ := h.remove hpos
      exact Or.inl ⟨_, c', if_pos hpos, by rw [call, hremove]; rfl, hreads⟩
    · exact Or.inr ⟨if_neg hpos, _, by rw [call, h.remove_refused hpos]; rfl⟩
  | clear => exact Or.inl ⟨[], c.clear, rfl, rfl, h.clear⟩

end Reads

/-! ## any calls -/

/-- after any calls, a column reads as the list after the same calls -/
theorem reads_after (t : DataType) (calls : List Call) :
    ((empty t).after calls).Reads t (listAfter t [] calls) := by
  induction calls using List.reverseRecOn with
  | nil => exact reads_empty t
  | append_singleton calls k ih =>
    rw [after, listAfter, List.foldl_concat, List.foldl_concat, ← after, ← listAfter]
    rcases ih.call_cases k with ⟨vs', c', hlist, hcall, hreads⟩ | ⟨hlist, fault, hcall⟩
    · rw [hlist, hcall]
      exact hreads
    · rw [hlist, hcall]
      exact ih

/-- after any calls, a column is as long as the list after the same calls and has its values, with
a payload under each of them; and it answers the calls that the list takes, and refuses the others
with an internal error and stays as it is -/
theorem list_after (t : DataType) (calls : List Call) :
    let c := (empty t).after calls
    let vs := listAfter t [] calls
    c.length = vs.length ∧ c.cells.length = vs.length ∧ (∀ pos, c.get? pos = vs[pos]?) ∧
      ∀ k : Call,
        ((k.onList? t vs).isSome = true → (c.call k).answer = .ok ()) ∧
          (k.onList? t vs = none → ∃ fault, c.call k = .fail (.internal fault) c) := by
  intro c vs
  have h : c.Reads t vs := reads_after t calls
  refine ⟨h.length_eq, h.payloads, h.get, fun k => ?_⟩
  rcases h.call_cases k with ⟨vs', c', hlist, hcall, -⟩ | ⟨hlist, fault, hcall⟩
  · refine ⟨fun _ => by rw [hcall]; rfl, fun hnone => ?_⟩
    cases hlist.symm.trans hnone
  · refine ⟨fun hsome => ?_, fun _ => ⟨fault, hcall⟩⟩
    rw [hlist] at hsome
    cases hsome

/-- the payload of an emptied cell does not come back when the rows above it go -/
example : ((empty .int).after [.push (.int 7), .push (.text "x"), .set 0 .null, .push (.int 5),
    .push (.int 6), .remove 1, .set 2 .null]).values = [.null, .int 6] := by decide

end Column

end TableStore
