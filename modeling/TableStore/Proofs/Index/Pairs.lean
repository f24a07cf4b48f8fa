import Mathlib.Data.Finset.Card
import TableStore.Proofs.Index.Calls

/-!
# An index as a set of pairs

An index keeps a bucket for each value, and makes and drops buckets as positions come and go. What
it answers is about a set: the pairs of a value and a position that it records.

* `Index.Pairs`, `Call.onPairs`   the set, what a call makes of it, and the value that a call is
                                  refused for;
* `Disciplined`                   calls of which each move is from a value that the position is
                                  paired with;
* `Records.mirrors_call`          one call does to an index what it does to the set of its pairs;
* `Records.after`                 and so do disciplined calls;
* `pairs_after`                   so what an index answers is read off the set.

The discipline is needed: a refused move puts the position back under its old value, also where it
was not before (`not_single_after_misplaced`).
-/

namespace TableStore.Index

/-! ## the set -/

/-- values with positions -/
abbrev Pairs := Finset (Value × Nat)

/-- a value may have one position only, and this value, which is not empty, has another -/
def Pairs.Taken (S : Pairs) (unique : Bool) (v : Value) (pos : Nat) : Prop :=
  unique = true ∧ v ≠ .null ∧ ∃ e ∈ S, e.1 = v ∧ e.2 ≠ pos

instance (unique : Bool) (S : Pairs) (v : Value) (pos : Nat) :
    Decidable (S.Taken unique v pos) := by
  unfold Pairs.Taken; infer_instance

/-- the set with one more pair; or as it was, and the value that is refused -/
def Pairs.add (S : Pairs) (unique : Bool) (v : Value) (pos : Nat) : Pairs × Option Value :=
  if S.Taken unique v pos then (S, some v) else (insert (v, pos) S, none)

/-- the set with a pair for another one of the same position -/
def Pairs.move (S : Pairs) (unique : Bool) (old new : Value) (pos : Nat) : Pairs × Option Value :=
  if S.Taken unique new pos then (S, some new)
  else (insert (new, pos) (S.erase (old, pos)), none)

/-- the set with the values at the positions from `pos` on, up to the first that is refused -/
def Pairs.addAll (S : Pairs) (unique : Bool) (pos : Nat) : List Value → Pairs × Option Value
  | [] => (S, none)
  | v :: vs =>
    if S.Taken unique v pos then (S, some v)
    else Pairs.addAll (insert (v, pos) S) unique (pos + 1) vs

/-- the set after a call, and the value that the call is refused for -/
def Call.onPairs (unique : Bool) (S : Pairs) : Call → Pairs × Option Value
  | .add v pos => S.add unique v pos
  | .remove v pos => (S.erase (v, pos), none)
  | .move old new pos => S.move unique old new pos
  | .rebuild vs => Pairs.addAll ∅ unique 0 vs
  | .clear => (∅, none)

/-- the set after calls, answered or refused -/
def pairsAfter (unique : Bool) (S : Pairs) (calls : List Call) : Pairs :=
  calls.foldl (fun S c => (c.onPairs unique S).1) S

/-- a move is from a value that the position is paired with -/
def Call.Heeds (S : Pairs) : Call → Prop
  | .move old _ pos => (old, pos) ∈ S
  | _ => True

instance (S : Pairs) (c : Call) : Decidable (c.Heeds S) :=
  match c with
  | .move old _ pos => Finset.decidableMem (old, pos) S
  | .add _ _ | .remove _ _ | .rebuild _ | .clear => .isTrue trivial

/-- each call heeds the set that the calls before it leave -/
def Disciplined (unique : Bool) : Pairs → List Call → Prop
  | _, [] => True
  | S, c :: calls => c.Heeds S ∧ Disciplined unique (c.onPairs unique S).1 calls

instance decidableDisciplined (unique : Bool) (S : Pairs) (calls : List Call) :
    Decidable (Disciplined unique S calls) :=
  match calls with
  | [] => .isTrue trivial
  | c :: calls =>
    have := decidableDisciplined unique (c.onPairs unique S).1 calls
    inferInstanceAs (Decidable (c.Heeds S ∧ Disciplined unique (c.onPairs unique S).1 calls))

/-- the answer to a call that is refused for a value, or for none -/
def reply (i : Index) : Option Value → Except Error Unit
  | none => .ok ()
  | some v => .error (i.duplicate v)

/-! ## an index of a set -/

/-- a sound index with these pairs -/
structure Records (i : Index) (S : Pairs) : Prop where
  sound : i.Sound
  mem : ∀ v pos, pos ∈ i.find v ↔ (v, pos) ∈ S

/-- an index answers as a set of pairs does, and has the pairs of the set afterwards -/
structure Mirrors (i : Index) (o : Outcome Index Unit) (r : Pairs × Option Value) : Prop where
  answer : o.answer = i.reply r.2
  records : o.state.Records r.1

/-- what an index answers, read off a set of pairs -/
structure Shows (i : Index) (S : Pairs) : Prop where
  ascending : ∀ v, (i.find v).Pairwise (· < ·)
  mem_find : ∀ v pos, pos ∈ i.find v ↔ (v, pos) ∈ S
  has_iff : ∀ v, i.has v = true ↔ ∃ pos, (v, pos) ∈ S
  size : i.size = S.card
  isEmpty_iff : i.isEmpty = true ↔ S = ∅

section
variable {i : Index} {S : Pairs}

/-- no bucket is empty, so an index that records nothing has none -/
theorem recorded_eq_nil_iff (hi : i.Sound) : i.recorded = [] ↔ i.isEmpty = true := by
  unfold recorded isEmpty
  rw [List.flatMap_eq_nil_iff, List.isEmpty_iff]
  constructor
  · intro h
    refine List.eq_nil_iff_forall_not_mem.2 fun b hb => ?_
    exact hi.filled b hb (List.map_eq_nil_iff.1 (h b hb))
  · intro h
    simp [h]

theorem records_clear (i : Index) : i.clear.Records ∅ :=
  ⟨ordered_nil, fun v pos => by simp [find, clear]⟩

namespace Records

theorem record (h : i.Records S) (v : Value) (pos : Nat) :
    (i.record v pos).Records (insert (v, pos) S) := by
  refine ⟨h.sound.addTo v pos, fun w p => ?_⟩
  rw [mem_find_record, h.mem, Finset.mem_insert, Prod.mk.injEq, eq_comm (a := v)]

theorem remove (h : i.Records S) (v : Value) (pos : Nat) :
    (i.remove v pos).Records (S.erase (v, pos)) := by
  refine ⟨h.sound.removeFrom v pos, fun w p => ?_⟩
  rw [mem_find_remove h.sound, h.mem, Finset.mem_erase, ne_eq, Prod.mk.injEq, eq_comm (a := v),
    and_comm]

/-- an index that records a set has the pairs of the set, each of them once -/
theorem recorded_toFinset (h : i.Records S) : i.recorded.toFinset = S := by
  ext e
  rw [List.mem_toFinset, mem_recorded h.sound, h.mem]

theorem shows (h : i.Records S) : i.Shows S where
  ascending := find_ascending h.sound
  mem_find := h.mem
  has_iff v := by
    rw [has_iff_find h.sound]
    constructor
    · intro hne
      obtain ⟨pos, hpos⟩ := List.exists_mem_of_ne_nil _ hne
      exact ⟨pos, (h.mem v pos).1 hpos⟩
    · intro ⟨pos, hpos⟩
      exact List.ne_nil_of_mem ((h.mem v pos).2 hpos)
  size := by
    rw [← length_recorded, ← h.recorded_toFinset,
      List.toFinset_card_of_nodup (nodup_recorded h.sound)]
  isEmpty_iff := by
    rw [← h.recorded_toFinset, List.toFinset_eq_empty_iff, recorded_eq_nil_iff h.sound]

theorem taken_iff (h : i.Records S) {v : Value} {pos : Nat} :
    S.Taken i.isUnique v pos ↔ i.isUnique = true ∧ i.HeldElsewhere v pos := by
  unfold Pairs.Taken HeldElsewhere
  refine and_congr_right fun _ => and_congr_right fun _ => ?_
  constructor
  · rintro ⟨⟨_, p⟩, hmem, rfl, hne⟩
    exact ⟨p, (h.mem _ p).2 hmem, hne⟩
  · rintro ⟨p, hp, hne⟩
    exact ⟨(v, p), (h.mem v p).1 hp, rfl, hne⟩

/-- a value is refused if it is taken, and recorded otherwise -/
theorem add_cases (h : i.Records S) (v : Value) (pos : Nat) :
    (S.Taken i.isUnique v pos ∧ i.add v pos = .error (i.duplicate v)) ∨
      (¬ S.Taken i.isUnique v pos ∧ i.add v pos = .ok (i.record v pos)) := by
  rw [h.taken_iff]
  exact Index.add_cases i v pos

theorem mirrors_add (h : i.Records S) (v : Value) (pos : Nat) :
    i.Mirrors (.ofExcept (i.add v pos) i) (S.add i.isUnique v pos) := by
  unfold Pairs.add
  rcases h.add_cases v pos with ⟨htaken, hadd⟩ | ⟨hfree, hadd⟩
  · rw [hadd, if_pos htaken]
    exact ⟨rfl, h⟩
  · rw [hadd, if_neg hfree]
    exact ⟨rfl, h.record v pos⟩

theorem mirrors_addAll (h : i.Records S) (pos : Nat) (vs : List Value) :
    i.Mirrors (i.addAll pos vs) (S.addAll i.isUnique pos vs) := by
  induction vs generalizing i S pos with
  | nil => exact ⟨rfl, h⟩
  | cons v vs ih =>
    rw [addAll_cons]
    unfold Pairs.addAll
    rcases h.add_cases v pos with ⟨htaken, hadd⟩ | ⟨hfree, hadd⟩
    · rw [hadd, if_pos htaken]
      exact ⟨rfl, h⟩
    · rw [hadd, if_neg hfree]
      have hrest := ih (h.record v pos) (pos + 1)
      exact ⟨hrest.answer, hrest.records⟩

/-- if a value has one position, no other one is paired with the value of a pair -/
theorem not_taken (h : i.Records S) (hsingle : i.isUnique = true → i.Single) {v : Value} {pos : Nat}
    (hmem : (v, pos) ∈ S) : ¬ S.Taken i.isUnique v pos := by
  rw [h.taken_iff]
  intro ⟨hu, hv, p, hp, hne⟩
  exact hne ((single_iff h.sound).1 (hsingle hu) v hv p hp pos ((h.mem v pos).2 hmem))

theorem mirrors_move (h : i.Records S) (hsingle : i.isUnique = true → i.Single) {old : Value}
    {pos : Nat} (hold : (old, pos) ∈ S) (new : Value) :
    i.Mirrors (i.move old new pos) (S.move i.isUnique old new pos) := by
  unfold Index.move Pairs.move
  by_cases hsame : old = new
  · subst hsame
    rw [if_pos rfl, if_neg (h.not_taken hsingle hold), Finset.insert_erase hold]
    exact ⟨rfl, h⟩
  have hfreed := h.remove old pos
  have htaken :
      Pairs.Taken (S.erase (old, pos)) i.isUnique new pos ↔ S.Taken i.isUnique new pos := by
    rw [h.taken_iff, ← heldElsewhere_remove_iff h.sound]
    exact hfreed.taken_iff
  rw [if_neg hsame]
  rcases hfreed.add_cases new pos with ⟨hheld, hadd⟩ | ⟨hfree, hadd⟩
  · -- the old pair was there, so what is put back makes the set whole
    simp only [hadd, if_pos (htaken.1 hheld)]
    refine ⟨rfl, ?_⟩
    have hback := hfreed.record old pos
    rwa [Finset.insert_erase hold] at hback
  · simp only [hadd, if_neg fun hall => hfree (htaken.2 hall)]
    exact ⟨rfl, hfreed.record new pos⟩

/-- one call does to an index what it does to the set of its pairs -/
theorem mirrors_call (h : i.Records S) (hsingle : i.isUnique = true → i.Single) {c : Call}
    (hc : c.Heeds S) : i.Mirrors (i.call c) (c.onPairs i.isUnique S) := by
  cases c with
  | add v pos => exact h.mirrors_add v pos
  | remove v pos => exact ⟨rfl, h.remove v pos⟩
  | move old new pos => exact h.mirrors_move hsingle hc new
  | rebuild vs =>
    have hall := (records_clear i).mirrors_addAll 0 vs
    exact ⟨hall.answer, hall.records⟩
  | clear => exact ⟨rfl, records_clear i⟩

/-- a call that heeds the set leaves a unique index with one position for a value -/
theorem single_call (h : i.Records S) (hsingle : i.isUnique = true → i.Single) {c : Call}
    (hc : c.Heeds S) (hu : i.isUnique = true) : (i.call c).state.Single := by
  refine (single_call_iff h.sound hu (hsingle hu) c).2 ?_
  cases c with
  | move old new pos =>
    intro ⟨_, hheld, _⟩
    exact h.not_taken hsingle hc (h.taken_iff.2 ⟨hu, hheld⟩)
  | add v pos => exact id
  | remove v pos => exact id
  | rebuild vs => exact id
  | clear => exact id

end Records

/-! ## any calls -/

/-- no call changes whose index it is -/
theorem clear_call (i : Index) (c : Call) : (i.call c).state.clear = i.clear :=
  call_keeps (P := fun j => j.clear = i.clear) (fun _ _ _ h => h) (fun _ _ _ h => h) (fun _ h => h)
    rfl c

/-- disciplined calls do to an index what they do to the set of its pairs -/
theorem Records.after (h : i.Records S) (hsingle : i.isUnique = true → i.Single) {calls : List Call}
    (hcalls : Disciplined i.isUnique S calls) :
    (i.after calls).clear = i.clear ∧
      ((i.after calls).isUnique = true → (i.after calls).Single) ∧
      (i.after calls).Records (pairsAfter i.isUnique S calls) := by
  induction calls generalizing i S with
  | nil => exact ⟨rfl, hsingle, h⟩
  | cons c calls ih =>
    obtain ⟨hc, hrest⟩ := hcalls
    have hclear := clear_call i c
    have hunique : (i.call c).state.isUnique = i.isUnique := congrArg (·.isUnique) hclear
    have hrecords := (h.mirrors_call hsingle hc).records
    have hkept := ih hrecords (fun hu => h.single_call hsingle hc (hunique ▸ hu))
      (hunique.symm ▸ hrest)
    rw [hunique] at hkept
    exact ⟨hkept.1.trans hclear, hkept.2⟩

/-- after disciplined calls, an index answers what the set of pairs after the same calls tells; and
a next call that heeds the set is refused for the value that the set refuses, and leaves an index of
the set that the call makes of it -/
theorem pairs_after (column : String) (isPrimaryKey isUnique : Bool) (calls : List Call)
    (hcalls : Disciplined (isUnique || isPrimaryKey) ∅ calls) :
    let i := (empty column isPrimaryKey isUnique).after calls
    let S := pairsAfter (isUnique || isPrimaryKey) ∅ calls
    i.Shows S ∧ ∀ c : Call, c.Heeds S →
      (i.call c).answer
          = (empty column isPrimaryKey isUnique).reply (c.onPairs (isUnique || isPrimaryKey) S).2 ∧
        (i.call c).state.Shows (c.onPairs (isUnique || isPrimaryKey) S).1 := by
  intro i S
  have hempty : (empty column isPrimaryKey isUnique).Records ∅ :=
    records_clear (empty column isPrimaryKey isUnique)
  have hsingle : (empty column isPrimaryKey isUnique).Single := single_of_find_eq_nil fun v => rfl
  obtain ⟨hclear, hkept, hrecords⟩ := hempty.after (fun _ => hsingle) hcalls
  have hunique : i.isUnique = (isUnique || isPrimaryKey) := congrArg (·.isUnique) hclear
  have hreply : i.reply = (empty column isPrimaryKey isUnique).reply := by
    have hsame := congrArg reply hclear
    exact hsame
  refine ⟨hrecords.shows, fun c hc => ?_⟩
  have hmirrors := hrecords.mirrors_call hkept hc
  rw [hunique] at hmirrors
  exact ⟨hreply ▸ hmirrors.answer, hmirrors.records.shows⟩

/-- a move and an addition that are refused, a move that goes nowhere, empty values twice, and a
removal of what was never recorded -/
def disciplinedCalls : List Call := [
  .add (.int 1) 0, .add (.int 2) 1, .move (.int 1) (.int 2) 0, .add (.int 1) 7,
  .move (.int 2) (.int 2) 1, .add .null 2, .add .null 3, .remove (.int 9) 2, .remove .null 2,
  .move .null (.int 5) 3]

theorem pairs_after_disciplinedCalls :
    Disciplined (true || false) ∅ disciplinedCalls ∧
      ((empty "id" false true).after disciplinedCalls).Shows
        {(.int 1, 0), (.int 2, 1), (.int 5, 3)} := by
  have hcalls : Disciplined (true || false) ∅ disciplinedCalls := by decide
  have hset : pairsAfter (true || false) ∅ disciplinedCalls
      = {(.int 1, 0), (.int 2, 1), (.int 5, 3)} := by decide
  exact ⟨hcalls, hset ▸ (pairs_after "id" false true disciplinedCalls hcalls).1⟩

end

end TableStore.Index
