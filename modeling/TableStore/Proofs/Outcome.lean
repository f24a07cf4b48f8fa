import TableStore.Outcome

/-!
# Steps that are not refused half way

* `Outcome.forEach_ok`   what every step keeps, and none of them fails with, a whole run keeps;
* `Outcome.forEach_congr`   steps that agree make runs that agree;
* `Outcome.forEach_unchanged`   steps that change nothing make a run that changes nothing;
* `Outcome.forEach_perm`   steps that commute may be taken in any order;
* `Outcome.Atomic`       a step that leaves the state as it was when it fails, and one with a given
                         property when it answers;
* `AnswerRel`            the same failure, or related answers;
* `SameKind`             the same answer, or failures of one kind;
* `Outcome.SameEffect`   the same answer, or two failures, and the same state afterwards;
* `Outcome.Alike`        related answers from two states, and related states afterwards.
-/

namespace TableStore

/-- the same failure, or related answers -/
inductive AnswerRel {α β : Type} (S : α → β → Prop) : Except Error α → Except Error β → Prop where
  | error (e : Error) : AnswerRel S (.error e) (.error e)
  | ok {a : α} {b : β} (h : S a b) : AnswerRel S (.ok a) (.ok b)

/-- the same answer, or failures of one kind -/
inductive SameKind {α : Type} : Except Error α → Except Error α → Prop where
  | error {e e' : Error} (h : e.kind = e'.kind) : SameKind (.error e) (.error e')
  | ok (a : α) : SameKind (.ok a) (.ok a)

theorem SameKind.refl {α : Type} (r : Except Error α) : SameKind r r := by
  cases r with
  | error e => exact .error rfl
  | ok a => exact .ok a

theorem SameKind.eq_ok {α : Type} {a : α} {r : Except Error α} (h : SameKind (.ok a) r) :
    r = .ok a := by
  cases h
  rfl

/-- related options are both empty, or hold related values -/
theorem optionRel_cases {α β : Type} {S : α → β → Prop} {a : Option α} {b : Option β}
    (h : Option.Rel S a b) : (a = none ∧ b = none) ∨ ∃ x y, a = some x ∧ b = some y ∧ S x y := by
  cases h with
  | none => exact Or.inl ⟨rfl, rfl⟩
  | some h => exact Or.inr ⟨_, _, rfl, rfl, h⟩

theorem AnswerRel.eq {α : Type} {r r' : Except Error α} (h : AnswerRel Eq r r') : r = r' := by
  cases h with
  | error e => rfl
  | ok h => rw [h]

theorem map_eq_ok_iff {ε α β : Type} {r : Except ε α} {f : α → β} {b : β} :
    r.map f = .ok b ↔ ∃ a, r = .ok a ∧ f a = b := by
  constructor
  · intro h
    cases r with
    | error e => cases h
    | ok a => exact ⟨a, rfl, Except.ok.inj h⟩
  · rintro ⟨a, rfl, rfl⟩
    rfl

theorem map_eq_error_iff {ε α β : Type} {r : Except ε α} {f : α → β} {e : ε} :
    r.map f = .error e ↔ r = .error e := by
  cases r with
  | error e' => simp [Except.map]
  | ok a => simp [Except.map]

namespace Outcome

variable {σ τ α β : Type}

@[simp] theorem within_ok (a : α) (s : σ) (embed : σ → τ) :
    (ok a s).within embed = ok a (embed s) := rfl

@[simp] theorem within_fail (e : Error) (s : σ) (embed : σ → τ) :
    (fail e s : Outcome σ α).within embed = fail e (embed s) := rfl

@[simp] theorem map_ok (a : α) (s : σ) (f : α → β) : (ok a s).map f = ok (f a) s := rfl

/-- `P` may speak of the elements that are still to come -/
theorem forEach_ok {step : α → σ → Outcome σ Unit} (P : List α → σ → Prop)
    (hstep : ∀ x xs s, P (x :: xs) s → ∃ s', step x s = ok () s' ∧ P xs s')
    (xs : List α) (s : σ) (h : P xs s) : ∃ s', forEach step xs s = ok () s' ∧ P [] s' := by
  induction xs generalizing s with
  | nil => exact ⟨s, rfl, h⟩
  | cons x xs ih =>
    obtain ⟨s', hs, hP⟩ := hstep x xs s h
    obtain ⟨s'', hrun, hP'⟩ := ih s' hP
    refine ⟨s'', ?_, hP'⟩
    rw [forEach, hs, andThen_ok, hrun]

/-- steps that agree where `P` holds, and keep it, agree over a whole run -/
theorem forEach_congr {step step' : α → σ → Outcome σ Unit} (P : σ → Prop) {xs : List α}
    (hstep : ∀ x ∈ xs, ∀ s, P s → step x s = step' x s ∧ P (step' x s).state) {s : σ} (h : P s) :
    forEach step xs s = forEach step' xs s ∧ P (forEach step' xs s).state := by
  induction xs generalizing s with
  | nil => exact ⟨rfl, h⟩
  | cons x xs ih =>
    rw [List.forall_mem_cons] at hstep
    obtain ⟨hsame, hP⟩ := hstep.1 s h
    rw [forEach, forEach, hsame]
    unfold andThen
    cases (step' x s).answer with
    | error e => exact ⟨rfl, hP⟩
    | ok _ => exact ih hstep.2 hP

theorem forEach_unchanged {step : α → σ → Outcome σ Unit} {xs : List α} {s : σ}
    (h : ∀ x ∈ xs, step x s = ok () s) : forEach step xs s = ok () s := by
  induction xs with
  | nil => rfl
  | cons x xs ih =>
    rw [List.forall_mem_cons] at h
    rw [forEach, h.1, andThen_ok]
    exact ih h.2

/-! ## runs that answer -/

theorem within_eq_ok_iff {o : Outcome σ α} {embed : σ → τ} {a : α} {s : τ} :
    o.within embed = ok a s ↔ ∃ s', o = ok a s' ∧ embed s' = s := by
  constructor
  · intro h
    obtain ⟨answer, state⟩ := o
    cases h
    exact ⟨state, rfl, rfl⟩
  · rintro ⟨s', rfl, rfl⟩
    rfl

theorem map_eq_ok_iff {o : Outcome σ α} {f : α → β} {b : β} {s : σ} :
    o.map f = ok b s ↔ ∃ a, o = ok a s ∧ f a = b := by
  constructor
  · intro h
    obtain ⟨answer, state⟩ := o
    cases answer with
    | error e => cases h
    | ok a =>
      cases h
      exact ⟨a, rfl, rfl⟩
  · rintro ⟨a, rfl, rfl⟩
    rfl

theorem andThen_eq_ok_iff {o : Outcome σ α} {next : α → σ → Outcome σ β} {b : β} {s : σ} :
    o.andThen next = ok b s ↔ ∃ a s', o = ok a s' ∧ next a s' = ok b s := by
  constructor
  · intro h
    obtain ⟨answer, state⟩ := o
    cases answer with
    | error e => cases h
    | ok a => exact ⟨a, state, rfl, h⟩
  · rintro ⟨a, s', rfl, h⟩
    exact h

theorem forEach_cons_eq_ok_iff {step : α → σ → Outcome σ Unit} {x : α} {xs : List α} {s s' : σ} :
    forEach step (x :: xs) s = ok () s' ↔
      ∃ u, step x s = ok () u ∧ forEach step xs u = ok () s' := by
  rw [forEach, andThen_eq_ok_iff]
  exact ⟨fun ⟨_, u, hu, h⟩ => ⟨u, hu, h⟩, fun ⟨u, hu, h⟩ => ⟨(), u, hu, h⟩⟩

/-- steps that go through where others do, and do the same, make a run that does -/
theorem forEach_of_forEach {step step' : α → σ → Outcome σ Unit} (P : σ → Prop) {xs : List α}
    (hstep : ∀ x s u, P s → step x s = ok () u → step' x s = ok () u ∧ P u) {s s' : σ} (hs : P s)
    (h : forEach step xs s = ok () s') : forEach step' xs s = ok () s' := by
  induction xs generalizing s with
  | nil => exact h
  | cons x xs ih =>
    rw [forEach_cons_eq_ok_iff] at h ⊢
    obtain ⟨u, hu, hrest⟩ := h
    obtain ⟨hu', hP⟩ := hstep x s u hs hu
    exact ⟨u, hu', ih hP hrest⟩

/-- steps with different keys may be taken in any order, if any two of them may; `P` is what every
step keeps -/
theorem forEach_perm {κ : Type} {step : α → σ → Outcome σ Unit} (key : α → κ) (P : σ → Prop)
    (hkeep : ∀ x s u, P s → step x s = ok () u → P u)
    (hcomm : ∀ x y s u w, P s → key x ≠ key y → step x s = ok () u → step y u = ok () w →
      ∃ u', step y s = ok () u' ∧ step x u' = ok () w)
    {xs ys : List α} (hperm : xs.Perm ys) (hdiff : (xs.map key).Nodup) {s s' : σ} (hs : P s)
    (h : forEach step xs s = ok () s') : forEach step ys s = ok () s' := by
  induction hperm generalizing s with
  | nil => exact h
  | cons x _ ih =>
    rw [List.map_cons, List.nodup_cons] at hdiff
    rw [forEach_cons_eq_ok_iff] at h ⊢
    obtain ⟨u, hu, hrest⟩ := h
    exact ⟨u, hu, ih hdiff.2 (hkeep x s u hs hu) hrest⟩
  | swap x y xs =>
    have hne : key y ≠ key x := by
      intro he
      simp [he] at hdiff
    rw [forEach_cons_eq_ok_iff] at h
    obtain ⟨u, hu, hrest⟩ := h
    rw [forEach_cons_eq_ok_iff] at hrest
    obtain ⟨w, hw, hrest⟩ := hrest
    obtain ⟨u', hu', hw'⟩ := hcomm y x s u w hs hne hu hw
    exact forEach_cons_eq_ok_iff.2 ⟨u', hu', forEach_cons_eq_ok_iff.2 ⟨w, hw', hrest⟩⟩
  | trans hxy _ ih ih' => exact ih' ((hxy.map key).nodup_iff.1 hdiff) hs (ih hdiff hs h)

/-- the same answer, or two failures, and the same state afterwards -/
inductive SameEffect : Outcome σ α → Outcome σ α → Prop where
  | refused (e e' : Error) (s : σ) : SameEffect (fail e s) (fail e' s)
  | done (a : α) (s : σ) : SameEffect (ok a s) (ok a s)

theorem SameEffect.eq_of_answer {o o' : Outcome σ α} (h : o.SameEffect o') {a : α}
    (ha : o.answer = .ok a) : o' = o := by
  cases h with
  | refused e e' s => cases ha
  | done a s => rfl

/-! ## failures that change nothing -/

/-- a failure that changes nothing, or an answer and a state with the property -/
def Atomic (o : Outcome σ α) (s : σ) (P : σ → Prop) : Prop :=
  (∃ e, o = fail e s) ∨ ∃ a s', o = ok a s' ∧ P s'

section
variable {o : Outcome σ α} {s : σ} {P : σ → Prop}

theorem atomic_fail (e : Error) (s : σ) (P : σ → Prop) : (fail e s : Outcome σ α).Atomic s P :=
  Or.inl ⟨e, rfl⟩

theorem atomic_ofExcept {r : Except Error σ} (h : ∀ s', r = .ok s' → P s') :
    (ofExcept r s).Atomic s P := by
  cases r with
  | error e => exact Or.inl ⟨e, rfl⟩
  | ok s' => exact Or.inr ⟨(), s', rfl, h s' rfl⟩

theorem Atomic.map (h : o.Atomic s P) (f : α → β) : (o.map f).Atomic s P := by
  rcases h with ⟨e, rfl⟩ | ⟨a, s', rfl, hP⟩
  · exact Or.inl ⟨e, rfl⟩
  · exact Or.inr ⟨f a, s', rfl, hP⟩

/-- whatever the answer, a property that held before and holds after an answer holds -/
theorem Atomic.state (h : o.Atomic s P) (hs : P s) : P o.state := by
  rcases h with ⟨e, rfl⟩ | ⟨a, s', rfl, hP⟩
  · exact hs
  · exact hP

theorem Atomic.state_of_error (h : o.Atomic s P) {e : Error} (he : o.answer = .error e) :
    o.state = s := by
  rcases h with ⟨e', rfl⟩ | ⟨a, s', rfl, -⟩
  · rfl
  · cases he

end

/-! ## two runs side by side -/

/-- related answers, and related states afterwards -/
structure Alike (S : α → β → Prop) (R : σ → τ → Prop) (o : Outcome σ α) (o' : Outcome τ β) :
    Prop where
  answer : AnswerRel S o.answer o'.answer
  state : R o.state o'.state

section
variable {S : α → β → Prop} {R : σ → τ → Prop}

theorem alike_fail (e : Error) {s : σ} {s' : τ} (h : R s s') :
    Alike S R (fail e s) (fail e s') := ⟨.error e, h⟩

theorem alike_ok {a : α} {b : β} {s : σ} {s' : τ} (ha : S a b) (h : R s s') :
    Alike S R (ok a s) (ok b s') := ⟨.ok ha, h⟩

variable {o : Outcome σ α} {o' : Outcome τ β}

theorem Alike.map {γ δ : Type} {T : γ → δ → Prop} (h : Alike S R o o') {f : α → γ} {g : β → δ}
    (hfg : ∀ a b, S a b → T (f a) (g b)) : Alike T R (o.map f) (o'.map g) := by
  obtain ⟨answer, state⟩ := o
  obtain ⟨answer', state'⟩ := o'
  obtain ⟨hanswer, hstate⟩ := h
  refine ⟨?_, hstate⟩
  cases hanswer with
  | error e => exact .error e
  | ok ha => exact .ok (hfg _ _ ha)

theorem alike_ofExcept {r : Except Error σ} {r' : Except Error τ} (h : AnswerRel R r r') {s : σ}
    {s' : τ} (hs : R s s') : Alike (fun _ _ => True) R (ofExcept r s) (ofExcept r' s') := by
  cases h with
  | error e => exact ⟨.error e, hs⟩
  | ok h => exact ⟨.ok trivial, h⟩

end

end Outcome

end TableStore
