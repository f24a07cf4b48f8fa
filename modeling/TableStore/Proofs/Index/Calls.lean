import Mathlib.Data.List.Induction
import TableStore.Proofs.Index

/-!
# Calls to an index

An index takes calls in any order, about any value and any position, also one that it has never
recorded.

* `Index.Call`, `Index.after`   everything that changes an index, and the index after calls, answered
                                or refused;
* `Index.Single`                no value but the empty one has two positions;
* `single_call_iff`             one call to a unique index keeps it `Single`, unless it is a refused
                                move whose position goes back to a value that another row holds
                                (`Index.Misplaces`);
* `single_after_iff`            and so do any calls.
-/

namespace TableStore.Index

/-- what changes an index -/
inductive Call where
  | add (v : Value) (pos : Nat)
  | remove (v : Value) (pos : Nat)
  | move (old new : Value) (pos : Nat)
  | rebuild (vs : List Value)
  | clear
  deriving DecidableEq

/-- makes a change -/
def call (i : Index) : Call → Outcome Index Unit
  | .add v pos => .ofExcept (i.add v pos) i
  | .remove v pos => .ok () (i.remove v pos)
  | .move old new pos => i.move old new pos
  | .rebuild vs => i.rebuild vs
  | .clear => .ok () i.clear

/-- the index after calls, answered or refused -/
def after (i : Index) (calls : List Call) : Index := calls.foldl (fun i c => (i.call c).state) i

/-- no value but the empty one has two positions -/
def Single (i : Index) : Prop := ∀ v, v ≠ .null → (i.find v).length ≤ 1

/-- a move to a value that another row holds, of a position whose old value another row holds too:
it is refused, and puts the position under the old value -/
def Misplaces (i : Index) : Call → Prop
  | .move old new pos => old ≠ new ∧ i.HeldElsewhere old pos ∧ i.HeldElsewhere new pos
  | _ => False

instance (i : Index) (c : Call) : Decidable (i.Misplaces c) := by
  cases c <;> unfold Misplaces <;> infer_instance

/-! ## one position for a value -/

section
variable {i : Index} {v : Value} {pos : Nat}

theorem single_iff (hi : i.Sound) :
    i.Single ↔ ∀ v, v ≠ .null → ∀ p ∈ i.find v, ∀ q ∈ i.find v, p = q := by
  refine forall_congr' fun v => imp_congr_right fun _ => ?_
  have hascending := find_ascending hi v
  generalize i.find v = ps at hascending ⊢
  rcases ps with _ | ⟨p, _ | ⟨q, ps⟩⟩
  · simp
  · simp
  · have hlt : p < q := (List.pairwise_cons.1 hascending).1 q List.mem_cons_self
    constructor
    · intro hlen
      simp at hlen
    · intro hall
      exact absurd (hall p (by simp) q (by simp)) (Nat.ne_of_lt hlt)

theorem single_of_find_eq_nil (h : ∀ v, i.find v = []) : i.Single := fun v _ => by
  rw [h]
  exact Nat.zero_le 1

/-- a position more under a value that another row holds is one too many, and no other is -/
theorem single_record_iff (hi : i.Sound) :
    (i.record v pos).Single ↔ i.Single ∧ ¬ i.HeldElsewhere v pos := by
  rw [single_iff hi, single_iff (i := i.record v pos) (hi.addTo v pos)]
  simp only [mem_find_record]
  constructor
  · intro h
    refine ⟨fun w hw p hp q hq => h w hw p (Or.inr hp) q (Or.inr hq), ?_⟩
    rintro ⟨hv, p, hp, hne⟩
    exact hne (h v hv p (Or.inr hp) pos (Or.inl ⟨rfl, rfl⟩))
  · rintro ⟨h, hfree⟩ w hw p hp q hq
    have hat (p : Nat) (hp : p ∈ i.find v) (hv : v ≠ .null) : p = pos := by
      by_contra hne
      exact hfree ⟨hv, p, hp, hne⟩
    rcases hp with ⟨rfl, rfl⟩ | hp
    · rcases hq with ⟨-, rfl⟩ | hq
      · rfl
      · exact (hat q hq hw).symm
    · rcases hq with ⟨rfl, rfl⟩ | hq
      · exact hat p hp hw
      · exact h w hw p hp q hq

theorem Single.remove (hi : i.Sound) (h : i.Single) : (i.remove v pos).Single := by
  rw [single_iff hi] at h
  rw [single_iff (i := i.remove v pos) (hi.removeFrom v pos)]
  intro w hw p hp q hq
  rw [mem_find_remove hi] at hp hq
  exact h w hw p hp.1 q hq.1

/-! ## one call -/

/-- every call records and forgets single positions -/
theorem call_keeps {P : Index → Prop} (hrecord : ∀ i v pos, P i → P (i.record v pos))
    (hremove : ∀ i v pos, P i → P (i.remove v pos)) (hclear : ∀ i, P i → P i.clear) (h : P i)
    (c : Call) : P (i.call c).state := by
  have hadd {i j : Index} {v : Value} {pos : Nat} (h : P i) (hj : i.add v pos = .ok j) : P j := by
    rcases add_cases i v pos with ⟨-, hadd⟩ | ⟨-, hadd⟩
    · cases hadd.symm.trans hj
    · cases hadd.symm.trans hj
      exact hrecord i v pos h
  cases c with
  | add v pos =>
    show P (Outcome.ofExcept (i.add v pos) i).state
    cases hj : i.add v pos with
    | error e => exact h
    | ok j => exact hadd h hj
  | remove v pos => exact hremove i v pos h
  | move old new pos =>
    show P (i.move old new pos).state
    have hfreed := hremove i old pos h
    unfold Index.move
    dsimp only
    split
    · exact h
    · split
      · rename_i j hj
        exact hadd hfreed hj
      · exact hrecord _ old pos hfreed
  | rebuild vs =>
    show P (i.clear.addAll 0 vs).state
    have hall (vs : List Value) (i : Index) (pos : Nat) (h : P i) : P (i.addAll pos vs).state := by
      induction vs generalizing i pos with
      | nil => exact h
      | cons v vs ih =>
        rw [addAll_cons]
        cases hj : i.add v pos with
        | error e => exact h
        | ok j => exact ih j (pos + 1) (hadd h hj)
    exact hall vs i.clear 0 (hclear i h)
  | clear => exact hclear i h

/-- no call takes the buckets out of order or makes another index of it -/
theorem Sound.call (hi : i.Sound) (c : Call) :
    (i.call c).state.Sound ∧ (i.call c).state.isUnique = i.isUnique := by
  refine call_keeps (P := fun j => j.Sound ∧ j.isUnique = i.isUnique) ?_ ?_ ?_ ⟨hi, rfl⟩ c
  · exact fun j v pos h => ⟨h.1.addTo v pos, h.2⟩
  · exact fun j v pos h => ⟨h.1.removeFrom v pos, h.2⟩
  · exact fun j h => ⟨ordered_nil, h.2⟩

/-! ## one call to a unique index -/

theorem Single.add (hi : i.Sound) (hu : i.isUnique = true) (h : i.Single) {j : Index}
    (hj : i.add v pos = .ok j) : j.Single := by
  rcases add_cases i v pos with ⟨-, hadd⟩ | ⟨hfree, hadd⟩
  · cases hadd.symm.trans hj
  · cases hadd.symm.trans hj
    exact (single_record_iff hi).2 ⟨h, fun hheld => hfree ⟨hu, hheld⟩⟩

theorem single_move_iff (hi : i.Sound) (hu : i.isUnique = true) (h : i.Single) {old new : Value} :
    (i.move old new pos).state.Single
      ↔ ¬ (old ≠ new ∧ i.HeldElsewhere old pos ∧ i.HeldElsewhere new pos) := by
  unfold Index.move
  by_cases hsame : old = new
  · rw [if_pos hsame]
    exact iff_of_true h fun hne => hne.1 hsame
  rw [if_neg hsame]
  have hfreed : (i.remove old pos).Sound := hi.removeFrom old pos
  have hsingle : (i.remove old pos).Single := h.remove hi
  rcases add_cases (i.remove old pos) new pos with ⟨⟨-, hheld⟩, hadd⟩ | ⟨hfree, hadd⟩
  · -- refused: the old value gets its position back, or one that it did not have
    rw [heldElsewhere_remove_iff hi] at hheld
    simp only [hadd]
    rw [show (Outcome.fail (σ := Index) (α := Unit) _ ((i.remove old pos).record old pos)).state
      = (i.remove old pos).record old pos from rfl, single_record_iff hfreed,
      heldElsewhere_remove_iff hi]
    simp [hsingle, hsame, hheld]
  · rw [heldElsewhere_remove_iff hi] at hfree
    have hnew : ¬ i.HeldElsewhere new pos := fun hheld => hfree ⟨hu, hheld⟩
    simp only [hadd]
    refine iff_of_true ((single_record_iff hfreed).2 ⟨hsingle, ?_⟩) fun hall => hnew hall.2.2
    rwa [heldElsewhere_remove_iff hi]

theorem Single.addAll (hi : i.Sound) (hu : i.isUnique = true) (h : i.Single) (vs : List Value) :
    (i.addAll pos vs).state.Single := by
  induction vs generalizing i pos with
  | nil => exact h
  | cons v vs ih =>
    rw [addAll_cons]
    cases hj : i.add v pos with
    | error e => exact h
    | ok j =>
      have hkeeps := hi.call (.add v pos)
      rw [show (i.call (.add v pos)).state = (Outcome.ofExcept (i.add v pos) i).state from rfl,
        hj] at hkeeps
      exact ih hkeeps.1 (hkeeps.2.trans hu) (h.add hi hu hj)

/-- one call keeps a unique index single, unless it misplaces its position -/
theorem single_call_iff (hi : i.Sound) (hu : i.isUnique = true) (h : i.Single) (c : Call) :
    (i.call c).state.Single ↔ ¬ i.Misplaces c := by
  have hclear : i.clear.Single := single_of_find_eq_nil fun v => rfl
  have hsound : i.clear.Sound := ordered_nil
  cases c with
  | add v pos =>
    refine iff_of_true ?_ id
    show (Outcome.ofExcept (i.add v pos) i).state.Single
    cases hj : i.add v pos with
    | error e => exact h
    | ok j => exact h.add hi hu hj
  | remove v pos => exact iff_of_true (h.remove hi) id
  | move old new pos => exact single_move_iff hi hu h
  | rebuild vs => exact iff_of_true (hclear.addAll hsound hu vs) id
  | clear => exact iff_of_true hclear id

end

/-! ## any calls -/

theorem after_concat (i : Index) (calls : List Call) (c : Call) :
    i.after (calls ++ [c]) = ((i.after calls).call c).state := List.foldl_concat _ _ _ _

theorem Sound.after {i : Index} (hi : i.Sound) (calls : List Call) :
    (i.after calls).Sound ∧ (i.after calls).isUnique = i.isUnique := by
  induction calls using List.reverseRecOn with
  | nil => exact ⟨hi, rfl⟩
  | append_singleton calls c ih =>
    rw [after_concat]
    obtain ⟨hsound, hunique⟩ := ih.1.call c
    exact ⟨hsound, hunique.trans ih.2⟩

/-- a unique index has one position for a value after each of its calls exactly if none of them is a
refused move whose position goes back to a value that another row holds -/
theorem single_after_iff {isPrimaryKey isUnique : Bool} (hu : (isPrimaryKey || isUnique) = true)
    (column : String) (calls : List Call) :
    (∀ n, ((empty column isPrimaryKey isUnique).after (calls.take n)).Single) ↔
      ∀ n c, calls[n]? = some c →
        ¬ ((empty column isPrimaryKey isUnique).after (calls.take n)).Misplaces c := by
  have hsound : (empty column isPrimaryKey isUnique).Sound := ordered_nil
  have hunique : (empty column isPrimaryKey isUnique).isUnique = true := (Bool.or_comm _ _).trans hu
  have hsingle : (empty column isPrimaryKey isUnique).Single := single_of_find_eq_nil fun v => rfl
  generalize empty column isPrimaryKey isUnique = i at hsound hunique hsingle ⊢
  have htake {n : Nat} {c : Call} (hc : calls[n]? = some c) :
      i.after (calls.take (n + 1)) = ((i.after (calls.take n)).call c).state := by
    rw [List.take_add_one, hc, ← after_concat]
    rfl
  have hstep (n : Nat) (h : (i.after (calls.take n)).Single) (c : Call) :=
    single_call_iff (hsound.after (calls.take n)).1
      ((hsound.after (calls.take n)).2.trans hunique) h c
  constructor
  · intro h n c hc
    exact (hstep n (h n) c).1 (htake hc ▸ h (n + 1))
  · intro h n
    induction n with
    | zero => exact hsingle
    | succ n ih =>
      cases hc : calls[n]? with
      | none =>
        rw [List.take_add_one, hc, Option.toList_none, List.append_nil]
        exact ih
      | some c =>
        rw [htake hc]
        exact (hstep n ih c).2 (h n c hc)

/-- a refused move of a recorded position, one of a position never recorded, values that come twice -/
def orderlyCalls : List Call := [
  .add (.int 1) 0, .add (.int 2) 1, .move (.int 1) (.int 2) 0, .move (.int 3) (.int 2) 7,
  .rebuild [.int 4, .null, .int 4, .int 5], .add .null 0, .move .null (.int 6) 1]

theorem single_after_orderlyCalls :
    (true || true) = true ∧
      ∀ n, ((empty "id" true true).after (orderlyCalls.take n)).Single := by
  have horderly : ∀ n < orderlyCalls.length, ∀ c ∈ orderlyCalls[n]?,
      ¬ ((empty "id" true true).after (orderlyCalls.take n)).Misplaces c := by
    decide +kernel
  refine ⟨rfl, (single_after_iff (by rfl) "id" orderlyCalls).2 fun n c hc => ?_⟩
  exact horderly n (List.getElem?_eq_some_iff.1 hc).1 c hc

/-- the third row is to go from `1` to `2`, though it was never recorded: it is left under `1`, which
the first row holds -/
theorem not_single_after_misplaced :
    ¬ ((empty "id" true true).after
      [.add (.int 1) 0, .add (.int 2) 1, .move (.int 1) (.int 2) 2]).Single := by
  intro h
  have hlen := h (.int 1) (by decide)
  revert hlen
  decide +kernel

end TableStore.Index
