import Mathlib.Data.List.Induction
import TableStore.Proofs.Index

/-!
# Rebuilding an index

An index is rebuilt from the values of all rows, in their order. What it held before does not count,
in order or not. A unique index stops at the first value that repeats an earlier one, and keeps the
values before it.

* `FirstRepeat`              the first value of a list, not empty, that stands before it too;
* `distinct_or_firstRepeat`  a list has one, unless no value but the empty one stands twice;
* `Index.Lists`              what an index of a list of values answers, and its buckets;
* `addAll_append`            to add two lists of values is to add one after the other;
* `rebuild_of_firstRepeat`   so a unique index takes the values before the first repeated one, and
                             is refused that one;
* `rebuild_exact`            what a rebuilt index answers is read off the values.
-/

namespace TableStore

/-- the first value that is not empty and repeats an earlier one, and the values before it, none of
which does -/
structure FirstRepeat (vs before : List Value) (v : Value) : Prop where
  split : ∃ after, vs = before ++ v :: after
  distinct : Distinct before
  repeated : v ≠ .null ∧ v ∈ before

section
variable {vs before : List Value} {v : Value}

theorem FirstRepeat.not_distinct (h : FirstRepeat vs before v) : ¬ Distinct vs := by
  intro hd
  obtain ⟨after, hsplit⟩ := h.split
  rw [hsplit, List.append_cons] at hd
  have hhead : Distinct (before ++ [v]) := (List.pairwise_append.1 hd).1
  exact (distinct_append_singleton.1 hhead).2 h.repeated.1 h.repeated.2

theorem FirstRepeat.append (h : FirstRepeat vs before v) (ws : List Value) :
    FirstRepeat (vs ++ ws) before v := by
  obtain ⟨after, hsplit⟩ := h.split
  exact ⟨⟨after ++ ws, by rw [hsplit, List.append_assoc, List.cons_append]⟩, h.distinct, h.repeated⟩

theorem distinct_or_firstRepeat (vs : List Value) :
    Distinct vs ∨ ∃ before v, FirstRepeat vs before v := by
  -- from the right: what a value repeats stands before it, and more values leave the first repeat
  induction vs using List.reverseRecOn with
  | nil => exact Or.inl List.Pairwise.nil
  | append_singleton vs v ih =>
    obtain hd | ⟨before, w, hrepeat⟩ := ih
    · by_cases hv : v ≠ .null ∧ v ∈ vs
      · exact Or.inr ⟨vs, v, ⟨[], rfl⟩, hd, hv⟩
      · exact Or.inl (distinct_append_singleton.2 ⟨hd, fun hnull hmem => hv ⟨hnull, hmem⟩⟩)
    · exact Or.inr ⟨before, w, hrepeat.append [v]⟩

end

namespace Index

/-- what an index answers, read off a list of values, and its buckets, in any order: one for each
value, with all its positions -/
structure Lists (i : Index) (vs : List Value) : Prop where
  find_eq : ∀ v, i.find v = positionsOf v vs
  has_iff : ∀ v, i.has v = true ↔ v ∈ vs
  size_eq : i.size = vs.length
  buckets : i.buckets.Perm (vs.dedup.map fun v => (v, positionsOf v vs))

section
variable {i : Index} {vs before : List Value} {v : Value}

theorem Tracks.lists (h : i.Tracks vs) : i.Lists vs where
  find_eq := h.find_eq
  has_iff _ := h.has_iff
  size_eq := h.size_eq
  buckets := h.buckets_perm

theorem addAll_append (i : Index) (pos : Nat) (vs ws : List Value) :
    i.addAll pos (vs ++ ws)
      = (i.addAll pos vs).andThen fun _ j => j.addAll (pos + vs.length) ws := by
  induction vs generalizing i pos with
  | nil => rfl
  | cons v vs ih =>
    rw [List.cons_append, addAll_cons, addAll_cons]
    cases i.add v pos with
    | error e => rfl
    | ok j =>
      show j.addAll (pos + 1) (vs ++ ws) = (j.addAll (pos + 1) vs).andThen _
      rw [ih, List.length_cons, Nat.add_assoc, Nat.add_comm 1]

/-- the values before the first repeated one are taken, and that one is refused, whatever comes
after it -/
theorem rebuild_of_firstRepeat (hu : i.isUnique = true) (h : FirstRepeat vs before v) :
    ∃ j, i.rebuild vs = .fail (i.duplicate v) j ∧ j.clear = i.clear ∧ j.Tracks before := by
  obtain ⟨after, hsplit⟩ := h.split
  obtain ⟨j, hj, hclear, htracks⟩ := i.rebuild_tracks before fun _ => h.distinct
  have hunique : j.isUnique = i.isUnique := congrArg (·.isUnique) hclear
  have hduplicate : j.duplicate v = i.duplicate v := congrArg (·.duplicate v) hclear
  have hrefused : j.addAll before.length (v :: after) = .fail (i.duplicate v) j := by
    rw [addAll_cons, htracks.add_eq_error (hunique.trans hu) h.repeated, hduplicate]
    rfl
  refine ⟨j, ?_, hclear, htracks⟩
  calc i.rebuild vs
      = (i.rebuild before).andThen fun _ j => j.addAll (0 + before.length) (v :: after) := by
        rw [hsplit]
        exact addAll_append i.clear 0 before (v :: after)
    _ = j.addAll before.length (v :: after) := by rw [hj, Outcome.andThen_ok, Nat.zero_add]
    _ = .fail (i.duplicate v) j := hrefused

/-- an index takes all the values, or it is unique and takes those before the first repeated one -/
theorem rebuild_cases (i : Index) (vs : List Value) :
    ((i.isUnique = true → Distinct vs) ∧
        ∃ j, i.rebuild vs = .ok () j ∧ j.clear = i.clear ∧ j.Tracks vs) ∨
      (i.isUnique = true ∧ ∃ before v, FirstRepeat vs before v ∧
        ∃ j, i.rebuild vs = .fail (i.duplicate v) j ∧ j.clear = i.clear ∧ j.Tracks before) := by
  by_cases hd : i.isUnique = true → Distinct vs
  · exact Or.inl ⟨hd, i.rebuild_tracks vs hd⟩
  · obtain ⟨hu, hd⟩ := Classical.not_imp.1 hd
    obtain ⟨before, v, hrepeat⟩ := (distinct_or_firstRepeat vs).resolve_left hd
    exact Or.inr ⟨hu, before, v, hrepeat, rebuild_of_firstRepeat hu hrepeat⟩

end

/-- whatever an index held, it can be rebuilt from a list of values exactly if it is not unique or
no value but the empty one stands twice, and then it is an index of the list; otherwise it is one of
the values before the first repeated one, which the failure names -/
theorem rebuild_exact (i : Index) (vs : List Value) :
    ((i.rebuild vs).answer = .ok () ↔ (i.isUnique = true → Distinct vs)) ∧
      ((i.rebuild vs).answer = .ok () → (i.rebuild vs).state.Lists vs) ∧
      (∀ e, (i.rebuild vs).answer = .error e → ∃ before v, FirstRepeat vs before v ∧
        e = .constraint i.column (.duplicate i.isPrimaryKey v) ∧
        (i.rebuild vs).state.Lists before) ∧
      (i.rebuild vs).state.clear = i.clear := by
  obtain ⟨hd, j, hj, hclear, htracks⟩ | ⟨hu, before, v, hrepeat, j, hj, hclear, htracks⟩ :=
    i.rebuild_cases vs
  · rw [hj]
    refine ⟨iff_of_true rfl hd, fun _ => htracks.lists, fun e he => ?_, hclear⟩
    cases he
  · rw [hj]
    refine ⟨iff_of_false (fun he => ?_) fun hd => hrepeat.not_distinct (hd hu), fun he => ?_,
      fun e he => ?_, hclear⟩
    · cases he
    · cases he
    · obtain rfl : i.duplicate v = e := Except.error.inj he
      exact ⟨before, v, hrepeat, rfl, htracks.lists⟩

example :
    (empty "id" true true).rebuild [.null, .int 4, .null, .int 4, .int 5]
      = .fail (.constraint "id" (.duplicate true (.int 4)))
          ⟨"id", true, true, [(.null, [0, 2]), (.int 4, [1])]⟩ := rfl

end Index

end TableStore
