import TableStore.Proofs.Sql.Phrase
import TableStore.Sql.Parser

/-!
# What a parser reads

* `Parser.Sound`   what the parser takes from the front is a phrase for its answer;
* `Parser.Leads`   the tokens on which the parser gives an answer, and those that it leaves.

Whether a phrase ends at a token depends on the token that comes next, so `Leads` speaks of all
tokens, and lemmas about it ask of the tokens left that none of them would go on with the phrase.
-/

namespace TableStore.Sql

/-- the tokens without their places -/
def words (ts : List Located) : List Token := ts.map (·.token)

@[simp] theorem words_nil : words [] = [] := rfl

@[simp] theorem words_cons (t : Located) (ts : List Located) :
    words (t :: ts) = t.token :: words ts := rfl

@[simp] theorem words_append (xs ys : List Located) : words (xs ++ ys) = words xs ++ words ys :=
  List.map_append

theorem exists_of_head? {ts : List Located} {t : Token} (h : (words ts).head? = some t) :
    ∃ u us, ts = u :: us ∧ u.token = t := by
  cases ts with
  | nil => cases h
  | cons u us => exact ⟨u, us, rfl, Option.some.inj h⟩

theorem head?_append_congr {us vs ws : List Token} (h : vs.head? = ws.head?) :
    (us ++ vs).head? = (us ++ ws).head? := by
  cases us with
  | nil => exact h
  | cons u us => rfl

namespace Parser

variable {α β : Type}

/-- what the parser takes from the front is a phrase for its answer -/
def Sound (p : Parser α) (phrase : α → List Token → Prop) : Prop :=
  ∀ (stop : Nat) (ts : List Located) (a : α) (rest : List Located),
    p.run stop ts = .ok (a, rest) → ∃ us, words ts = us ++ words rest ∧ phrase a us

/-- on tokens `ts`, wherever they stand, the parser gives `a` and leaves `vs` -/
def Leads (p : Parser α) (ts : List Token) (a : α) (vs : List Token) : Prop :=
  ∀ (stop : Nat) (xs : List Located), words xs = ts →
    ∃ rest, words rest = vs ∧ p.run stop xs = .ok (a, rest)

/-! ## sequences -/

theorem ext {p q : Parser α} (h : p.run = q.run) : p = q := by
  cases p
  cases q
  cases h
  rfl

theorem bind_assoc {γ : Type} (p : Parser α) (f : α → Parser β) (g : β → Parser γ) :
    p >>= f >>= g = p >>= fun a => f a >>= g := by
  apply ext
  funext stop ts
  rw [run_bind, run_bind, run_bind]
  rcases p.run stop ts with e | ⟨a, rest⟩ <;> rfl

theorem pure_bind (a : α) (next : α → Parser β) : (Pure.pure a : Parser α) >>= next = next a := rfl

theorem run_bind_eq_ok {p : Parser α} {next : α → Parser β} {stop : Nat} {ts : List Located}
    {b : β} {rest : List Located} :
    (p >>= next).run stop ts = .ok (b, rest) ↔
      ∃ a mid, p.run stop ts = .ok (a, mid) ∧ (next a).run stop mid = .ok (b, rest) := by
  rw [run_bind]
  cases p.run stop ts with
  | error e => simp
  | ok r =>
    obtain ⟨a, mid⟩ := r
    constructor
    · intro h
      exact ⟨a, mid, rfl, h⟩
    · rintro ⟨a', mid', ⟨⟩, h⟩
      exact h

theorem leads_pure (a : α) (ts : List Token) : (Pure.pure a : Parser α).Leads ts a ts :=
  fun _ xs hxs => ⟨xs, hxs, rfl⟩

theorem Leads.bind {p : Parser α} {next : α → Parser β} {ts us vs : List Token} {a : α} {b : β}
    (hp : p.Leads ts a us) (hnext : (next a).Leads us b vs) : (p >>= next).Leads ts b vs := by
  intro stop xs hxs
  obtain ⟨mid, hmid, hrun⟩ := hp stop xs hxs
  obtain ⟨rest, hrest, hrun'⟩ := hnext stop mid hmid
  exact ⟨rest, hrest, run_bind_eq_ok.2 ⟨a, mid, hrun, hrun'⟩⟩

/-! ## one token -/

theorem run_take_eq_ok {expected : Expected} {meaning : Token → Option α} {stop : Nat}
    {ts : List Located} {a : α} {rest : List Located} :
    (take expected meaning).run stop ts = .ok (a, rest) ↔
      ∃ t, ts = t :: rest ∧ meaning t.token = some a := by
  cases ts with
  | nil => simp [take]
  | cons t ts =>
    cases h : meaning t.token with
    | none => simp [take, h]
    | some b => simp [take, h, and_comm, eq_comm]

theorem sound_take {expected : Expected} {meaning : Token → Option α} (item : α → Token → Prop)
    (h : ∀ t a, meaning t = some a → item a t) :
    (take expected meaning).Sound (Phrase.Single item) := by
  intro stop ts a rest hrun
  obtain ⟨t, rfl, ht⟩ := run_take_eq_ok.1 hrun
  exact ⟨[t.token], rfl, .single (h t.token a ht)⟩

theorem leads_take {expected : Expected} {meaning : Token → Option α} {t : Token} {a : α}
    (h : meaning t = some a) (vs : List Token) : (take expected meaning).Leads (t :: vs) a vs := by
  intro stop xs hxs
  cases xs with
  | nil => cases hxs
  | cons x xs =>
    obtain ⟨rfl, rfl⟩ := List.cons.inj hxs
    exact ⟨xs, rfl, run_take_eq_ok.2 ⟨x, rfl, h⟩⟩

theorem sound_exactly (t : Token) : (exactly t).Sound fun _ us => us = [t] := by
  intro stop ts a rest hrun
  obtain ⟨u, rfl, hu⟩ := run_take_eq_ok.1 hrun
  have hut : u.token = t := by
    by_contra hne
    rw [if_neg hne] at hu
    cases hu
  exact ⟨[t], by rw [words_cons, hut]; rfl, rfl⟩

theorem leads_exactly (t : Token) (vs : List Token) : (exactly t).Leads (t :: vs) () vs :=
  leads_take (if_pos rfl) vs

theorem leads_optional {t : Token} {p q : Parser α} {us vs : List Token} {a : α}
    (hp : p.Leads us a vs) :
    (optional t >>= fun b => if b = true then p else q).Leads (t :: us) a vs := by
  have htake : (optional t).Leads (t :: us) true us := by
    intro stop xs hxs
    cases xs with
    | nil => cases hxs
    | cons x xs =>
      obtain ⟨hx, rfl⟩ := List.cons.inj hxs
      exact ⟨xs, rfl, by simp [optional, hx]⟩
  exact htake.bind hp

theorem leads_not_optional {t : Token} {p q : Parser α} {us vs : List Token} {a : α}
    (ht : us.head? ≠ some t) (hq : q.Leads us a vs) :
    (optional t >>= fun b => if b = true then p else q).Leads us a vs := by
  have hleave : (optional t).Leads us false us := by
    rintro stop xs rfl
    refine ⟨xs, rfl, ?_⟩
    cases xs with
    | nil => rfl
    | cons x xs =>
      have hx : x.token ≠ t := fun he => ht (congrArg some he)
      simp [optional, hx]
  exact hleave.bind hq

theorem leads_peek (ts : List Token) : peek.Leads ts ts.head? ts := by
  rintro stop xs rfl
  exact ⟨xs, rfl, by cases xs <;> rfl⟩

/-- where the next token stands does not matter -/
theorem leads_offset {next : Nat → Parser β} {ts vs : List Token} {b : β}
    (h : ∀ n, (next n).Leads ts b vs) : (offset >>= next).Leads ts b vs := by
  intro stop xs hxs
  obtain ⟨rest, hrest, hrun⟩ := h (offsetOf stop xs) stop xs hxs
  exact ⟨rest, hrest, hrun⟩

/-! ## lists -/

theorem leads_many {meaning : Token → Option α} {as : List α} {us vs : List Token}
    (h : List.Forall₂ (fun a t => meaning t = some a) as us)
    (hvs : ∀ t ∈ vs.head?, meaning t = none) : (many meaning).Leads (us ++ vs) as vs := by
  have hwords (xs : List Located) (hxs : words xs = us ++ vs) :
      (takeWhileMeans meaning xs).1 = as ∧ words (takeWhileMeans meaning xs).2 = vs := by
    induction h generalizing xs with
    | nil =>
      subst hxs
      cases xs with
      | nil => exact ⟨rfl, rfl⟩
      | cons x xs =>
        unfold takeWhileMeans
        rw [hvs x.token rfl]
        exact ⟨rfl, rfl⟩
    | cons ha _ ih =>
      cases xs with
      | nil => cases hxs
      | cons x xs =>
        obtain ⟨rfl, htail⟩ := List.cons.inj hxs
        obtain ⟨has, hrest⟩ := ih xs htail
        unfold takeWhileMeans
        rw [ha]
        exact ⟨congrArg (_ :: ·) has, hrest⟩
  intro stop xs hxs
  obtain ⟨has, hrest⟩ := hwords xs hxs
  exact ⟨_, hrest, congrArg (fun as => Except.ok (as, (takeWhileMeans meaning xs).2)) has⟩

theorem readCommaSeparated_last {item : Parser α} {stop : Nat} {ts : List Located} {a : α}
    {rest : List Located} (h : item.run stop ts = .ok (a, rest))
    (hend : (words rest).head? ≠ some (.symbol .comma)) :
    readCommaSeparated item stop ts = .ok ([a], rest) := by
  rw [readCommaSeparated]
  split
  · rename_i e he
    cases h.symm.trans he
  · rename_i b hb
    cases h.symm.trans hb
    rfl
  · rename_i b t mid hb
    cases h.symm.trans hb
    have ht : t.token ≠ .symbol .comma := fun he => hend (congrArg some he)
    rw [if_neg ht]

theorem readCommaSeparated_more {item : Parser α} {stop : Nat} {ts : List Located} {a : α}
    {t : Located} {mid : List Located} (h : item.run stop ts = .ok (a, t :: mid))
    (ht : t.token = .symbol .comma) {as : List α} {rest : List Located}
    (hrest : readCommaSeparated item stop mid = .ok (as, rest)) :
    readCommaSeparated item stop ts = .ok (a :: as, rest) := by
  rw [readCommaSeparated]
  split
  · rename_i e he
    cases h.symm.trans he
  · rename_i b hb
    cases h.symm.trans hb
  · rename_i b t' mid' hb
    cases h.symm.trans hb
    rw [if_pos ht, hrest]

theorem leads_commaSeparated_last {item : Parser α} {us vs : List Token} {a : α}
    (h : item.Leads us a vs) (hend : vs.head? ≠ some (.symbol .comma)) :
    (commaSeparated item).Leads us [a] vs := by
  intro stop xs hxs
  obtain ⟨rest, rfl, hrun⟩ := h stop xs hxs
  exact ⟨rest, rfl, readCommaSeparated_last hrun hend⟩

theorem leads_commaSeparated_more {item : Parser α} {us ws vs : List Token} {a : α} {as : List α}
    (h : item.Leads us a (.symbol .comma :: ws)) (hrest : (commaSeparated item).Leads ws as vs) :
    (commaSeparated item).Leads us (a :: as) vs := by
  intro stop xs hxs
  obtain ⟨mid, hmid, hrun⟩ := h stop xs hxs
  obtain ⟨t, mid, rfl, ht, hmid⟩ := List.map_eq_cons_iff.1 hmid
  obtain ⟨rest, hwords, hrun'⟩ := hrest stop mid hmid
  exact ⟨rest, hwords, readCommaSeparated_more hrun ht hrun'⟩

/-- a list ends where an item ends and no comma comes next -/
theorem leads_commaSeparated {item : Parser α} {phrase : α → List Token → Prop}
    (ends : List Token → Prop)
    (hitem : ∀ {a us vs}, phrase a us → ends vs → item.Leads (us ++ vs) a vs)
    (hcomma : ∀ us, ends (.symbol .comma :: us)) {as : List α} {us vs : List Token}
    (h : Phrase.Separated phrase as us) (hvs : ends vs) (hend : vs.head? ≠ some (.symbol .comma)) :
    (commaSeparated item).Leads (us ++ vs) as vs := by
  induction h with
  | one ha => exact leads_commaSeparated_last (hitem ha hvs) hend
  | more ha _ ih =>
    rw [List.append_assoc, List.cons_append]
    exact leads_commaSeparated_more (hitem ha (hcomma _)) ih

/-- nothing that comes next goes on with an item, so a list ends where no comma comes next -/
theorem leads_commaSeparated_closed {item : Parser α} {phrase : α → List Token → Prop}
    (hitem : ∀ {a us vs}, phrase a us → item.Leads (us ++ vs) a vs) {as : List α}
    {us vs : List Token} (h : Phrase.Separated phrase as us)
    (hend : vs.head? ≠ some (.symbol .comma)) : (commaSeparated item).Leads (us ++ vs) as vs :=
  leads_commaSeparated (fun _ => True) (fun ha _ => hitem ha) (fun _ => trivial) h trivial hend

/-! ## whole texts -/

theorem parse_congr {p q : Parser α} {text : TokenList}
    (h : p.run text.stop text.tokens = q.run text.stop text.tokens) :
    p.parse text = q.parse text := by
  unfold parse
  rw [h]

theorem sound_parse {p : Parser α} {phrase : α → List Token → Prop} (h : p.Sound phrase)
    {text : TokenList} {a : α} (hparse : p.parse text = .ok a) :
    ∃ us, phrase a us ∧
      (words text.tokens = us ∨ words text.tokens = us ++ [.symbol .semicolon]) := by
  unfold parse at hparse
  split at hparse
  · cases hparse
  rename_i b rest hrun
  obtain ⟨us, hus, hphrase⟩ := h _ _ _ _ hrun
  cases rest with
  | nil =>
    cases hparse
    rw [words_nil, List.append_nil] at hus
    exact ⟨us, hphrase, Or.inl hus⟩
  | cons t rest =>
    by_cases ht : t.token = .symbol .semicolon
    · simp only [optional, ht, if_true] at hparse
      cases rest with
      | nil =>
        cases hparse
        rw [words_cons, ht] at hus
        exact ⟨us, hphrase, Or.inr hus⟩
      | cons u rest => cases hparse
    · simp only [optional, ht, if_false] at hparse
      cases hparse

theorem parse_of_leads {p : Parser α} {us vs : List Token} {a : α} (h : p.Leads (us ++ vs) a vs)
    (hvs : vs = [] ∨ vs = [.symbol .semicolon]) {text : TokenList}
    (htext : words text.tokens = us ++ vs) : p.parse text = .ok a := by
  obtain ⟨rest, hrest, hrun⟩ := h text.stop text.tokens htext
  unfold parse
  simp only [hrun]
  rcases hvs with rfl | rfl
  · obtain rfl : rest = [] := List.map_eq_nil_iff.1 hrest
    rfl
  · obtain ⟨t, rfl, ht⟩ := List.map_eq_singleton_iff.1 hrest
    simp only [optional, ht, if_true]

end Parser

end TableStore.Sql
