import TableStore.Proofs.Sql.Reading

/-!
# Parsers that stop at the first misfit

A predictive parser decides by the next token alone. What it has read when it fails can be completed
to a phrase, but not if the next token has to come next, and that token is the one that it reports.

* `Parser.Balks`        the tokens on which the parser fails;
* `Parser.Predictive`   how a parser reads and fails by its next token;
* `Predictive.bind`     a sequence of predictive parsers is one;
* `Predictive.commaSeparated`   and so is a list.

A parser may have errors of its own, which tell more than the token. They are given by a relation
`own` between the tokens read, the token that comes next and the error.
-/

namespace TableStore.Sql

namespace Parser

variable {α β : Type}

/-- on tokens `ts`, wherever they stand, the parser fails, with one of the errors -/
def Balks (p : Parser α) (ts : List Token) (errors : Error → Prop) : Prop :=
  ∀ (stop : Nat) (xs : List Located), words xs = ts → ∃ e, errors e ∧ p.run stop xs = .error e

/-- the parser reads what is a phrase, and stops for the token that comes next, whatever comes after
it; what it has read when it fails begins a phrase -/
structure Predictive (p : Parser α) (phrase : α → List Token → Prop)
    (own : List Token → Option Token → Error → Prop) : Prop where
  inhabited : ∃ a us, phrase a us
  reads : ∀ {stop : Nat} {ts : List Located} {a : α} {rest : List Located},
    p.run stop ts = .ok (a, rest) → ∃ xs, ts = xs ++ rest ∧ phrase a (words xs) ∧
      ∀ vs, vs.head? = (words rest).head? → p.Leads (words xs ++ vs) a vs
  fails : ∀ {stop : Nat} {ts : List Located} {e : Error},
    p.run stop ts = .error e → ∃ xs rest, ts = xs ++ rest ∧ (∃ a us, phrase a (words xs ++ us)) ∧
      (∀ vs, vs.head? = (words rest).head? → p.Balks (words xs ++ vs) fun _ => True) ∧
        ((∃ expected, e = unexpected expected stop rest) ∨ own (words xs) (words rest).head? e)

variable {p q : Parser α} {next : α → Parser β} {phrase : α → List Token → Prop}
  {own : List Token → Option Token → Error → Prop}

/-! ## sequences -/

theorem run_bind_eq_error {stop : Nat} {ts : List Located} {e : Error} :
    (p >>= next).run stop ts = .error e ↔ p.run stop ts = .error e ∨
      ∃ a mid, p.run stop ts = .ok (a, mid) ∧ (next a).run stop mid = .error e := by
  rw [run_bind]
  cases p.run stop ts with
  | error e => simp
  | ok r =>
    obtain ⟨a, mid⟩ := r
    constructor
    · intro h
      exact Or.inr ⟨a, mid, rfl, h⟩
    · rintro (h | ⟨a', mid', ⟨⟩, h⟩)
      · cases h
      · exact h

theorem Balks.bind {ts : List Token} {errors : Error → Prop} (h : p.Balks ts errors)
    (next : α → Parser β) : (p >>= next).Balks ts errors := by
  intro stop xs hxs
  obtain ⟨e, he, hrun⟩ := h stop xs hxs
  exact ⟨e, he, run_bind_eq_error.2 (Or.inl hrun)⟩

theorem Leads.balks {ts us : List Token} {a : α} {errors : Error → Prop} (h : p.Leads ts a us)
    (hnext : (next a).Balks us errors) : (p >>= next).Balks ts errors := by
  intro stop xs hxs
  obtain ⟨mid, hmid, hrun⟩ := h stop xs hxs
  obtain ⟨e, he, hrun'⟩ := hnext stop mid hmid
  exact ⟨e, he, run_bind_eq_error.2 (Or.inr ⟨a, mid, hrun, hrun'⟩)⟩

theorem Predictive.sound (h : p.Predictive phrase fun _ _ _ => True) : p.Sound phrase := by
  intro stop ts a rest hrun
  obtain ⟨xs, rfl, hphrase, -⟩ := h.reads hrun
  exact ⟨words xs, words_append xs rest, hphrase⟩

theorem Predictive.imp {phrase' : α → List Token → Prop} (h : p.Predictive phrase own)
    (hphrase : ∀ a us, phrase a us → phrase' a us) : p.Predictive phrase' own where
  inhabited := by
    obtain ⟨a, us, hus⟩ := h.inhabited
    exact ⟨a, us, hphrase a us hus⟩
  reads hrun := by
    obtain ⟨xs, rfl, hxs, hleads⟩ := h.reads hrun
    exact ⟨xs, rfl, hphrase _ _ hxs, hleads⟩
  fails hrun := by
    obtain ⟨xs, rest, rfl, ⟨a, us, hus⟩, hrest⟩ := h.fails hrun
    exact ⟨xs, rest, rfl, ⟨a, us, hphrase a _ hus⟩, hrest⟩

/-- what is left of given tokens is an end of them, and no other -/
theorem Predictive.run_append (h : p.Predictive phrase fun _ _ _ => True) {a : α}
    {xs rest : List Located} (hleads : p.Leads (words xs ++ words rest) a (words rest)) (stop : Nat) :
    p.run stop (xs ++ rest) = .ok (a, rest) := by
  obtain ⟨rest', hwords, hrun⟩ := hleads stop (xs ++ rest) (words_append xs rest)
  obtain ⟨ys, hys, -⟩ := h.reads hrun
  have hlen : rest.length = rest'.length := by
    have hlen := congrArg List.length hwords
    simpa [words] using hlen.symm
  rw [hrun, (List.append_inj' hys hlen).2]

theorem predictive_pure {a : α} (h : phrase a []) :
    (Pure.pure a : Parser α).Predictive phrase own where
  inhabited := ⟨a, [], h⟩
  reads hrun := by
    cases hrun
    exact ⟨[], rfl, h, fun vs _ => leads_pure a vs⟩
  fails hrun := by cases hrun

/-- what follows a phrase `vs` has to complete it, and what it reports is reported after `vs` -/
theorem Predictive.bind {phrase' : β → List Token → Prop} (hp : p.Predictive phrase own)
    (hnext : ∀ a vs, phrase a vs →
      (next a).Predictive (fun b ws => phrase' b (vs ++ ws)) fun ws => own (vs ++ ws)) :
    (p >>= next).Predictive phrase' own where
  inhabited := by
    obtain ⟨a, us, hphrase⟩ := hp.inhabited
    obtain ⟨b, ws, hphrase'⟩ := (hnext a us hphrase).inhabited
    exact ⟨b, us ++ ws, hphrase'⟩
  reads hrun := by
    obtain ⟨a, mid, hrun, hrun'⟩ := run_bind_eq_ok.1 hrun
    obtain ⟨xs, rfl, hphrase, hleads⟩ := hp.reads hrun
    obtain ⟨ys, rfl, hphrase', hleads'⟩ := (hnext a _ hphrase).reads hrun'
    refine ⟨xs ++ ys, by rw [List.append_assoc], by rwa [words_append], fun vs hvs => ?_⟩
    rw [words_append, List.append_assoc]
    -- if `next` reads nothing, the first parser stops at the same token as the second
    refine (hleads _ ?_).bind (hleads' vs hvs)
    rw [words_append]
    exact head?_append_congr hvs
  fails hrun := by
    rcases run_bind_eq_error.1 hrun with hrun | ⟨a, mid, hrun, hrun'⟩
    · obtain ⟨xs, rest, rfl, ⟨a, us, hphrase⟩, hbalks, herror⟩ := hp.fails hrun
      obtain ⟨b, ws, hphrase'⟩ := (hnext a _ hphrase).inhabited
      rw [List.append_assoc] at hphrase'
      exact ⟨xs, rest, rfl, ⟨b, us ++ ws, hphrase'⟩, fun vs hvs => (hbalks vs hvs).bind next,
        herror⟩
    · obtain ⟨xs, rfl, hphrase, hleads⟩ := hp.reads hrun
      obtain ⟨ys, rest, rfl, ⟨b, us, hphrase'⟩, hbalks, herror⟩ := (hnext a _ hphrase).fails hrun'
      refine ⟨xs ++ ys, rest, by rw [List.append_assoc], ⟨b, us, ?_⟩, fun vs hvs => ?_, ?_⟩
      · rwa [words_append, List.append_assoc]
      · rw [words_append, List.append_assoc]
        refine (hleads _ ?_).balks (hbalks vs hvs)
        rw [words_append]
        exact head?_append_congr hvs
      · rwa [words_append]

/-! ## one token -/

theorem predictive_refuse {expected : Expected} (h : ∃ a us, phrase a us) :
    (refuse expected : Parser α).Predictive phrase own where
  inhabited := h
  reads hrun := by cases hrun
  fails {stop ts e} hrun := by
    cases hrun
    exact ⟨[], ts, rfl, h, fun vs _ stop xs _ => ⟨_, trivial, rfl⟩, Or.inl ⟨expected, rfl⟩⟩

theorem predictive_fail {e : Error} (h : ∃ a us, phrase a us) (hown : ∀ next, own [] next e) :
    (fail e : Parser α).Predictive phrase own where
  inhabited := h
  reads hrun := by cases hrun
  fails {stop ts e'} hrun := by
    cases hrun
    exact ⟨[], ts, rfl, h, fun vs _ stop xs _ => ⟨_, trivial, rfl⟩, Or.inr (hown _)⟩

theorem run_take_eq_error {expected : Expected} {meaning : Token → Option α} {stop : Nat}
    {ts : List Located} {e : Error} : (take expected meaning).run stop ts = .error e ↔
      (∀ t ∈ (words ts).head?, meaning t = none) ∧ e = unexpected expected stop ts := by
  cases ts with
  | nil => simp [take, eq_comm]
  | cons t ts =>
    cases h : meaning t.token with
    | none => simp [take, h, eq_comm]
    | some b => simp [take, h]

theorem predictive_take {expected : Expected} {meaning : Token → Option α}
    (h : (take expected meaning).Sound phrase) (hinhabited : ∃ a us, phrase a us) :
    (take expected meaning).Predictive phrase own where
  inhabited := hinhabited
  reads {stop ts a rest} hrun := by
    obtain ⟨t, rfl, ht⟩ := run_take_eq_ok.1 hrun
    obtain ⟨us, hus, hphrase⟩ := h stop _ a rest hrun
    have hus' : [t.token] ++ words rest = us ++ words rest := hus
    obtain rfl := List.append_cancel_right hus'
    exact ⟨[t], rfl, hphrase, fun vs _ => leads_take ht vs⟩
  fails {stop ts e} hrun := by
    obtain ⟨hnone, rfl⟩ := run_take_eq_error.1 hrun
    refine ⟨[], ts, rfl, hinhabited, fun vs hvs stop xs hxs => ?_, Or.inl ⟨expected, rfl⟩⟩
    obtain rfl : words xs = vs := hxs
    exact ⟨_, trivial, run_take_eq_error.2 ⟨hvs ▸ hnone, rfl⟩⟩

theorem predictive_exactly (t : Token) : (exactly t).Predictive (fun _ us => us = [t]) own :=
  predictive_take (sound_exactly t) ⟨(), [t], rfl⟩

/-! ## choices -/

theorem run_optional (t : Token) (p q : Parser α) (stop : Nat) (ts : List Located) :
    (optional t >>= fun b => if b = true then p else q).run stop ts
      = if (words ts).head? = some t then p.run stop ts.tail else q.run stop ts := by
  rw [run_bind]
  cases ts with
  | nil => rfl
  | cons u ts =>
    by_cases hu : u.token = t
    · simp [optional, hu]
    · simp [optional, hu]

/-- the first token decides between two ways to go on -/
theorem Predictive.optional {t : Token}
    (hp : p.Predictive (fun a us => phrase a (t :: us)) fun us => own (t :: us))
    (hq : q.Predictive phrase own) :
    (Parser.optional t >>= fun b => if b = true then p else q).Predictive phrase own where
  inhabited := hq.inhabited
  reads {stop ts a rest} hrun := by
    rw [run_optional] at hrun
    split at hrun
    · rename_i ht
      obtain ⟨u, ts, rfl, rfl⟩ := exists_of_head? ht
      obtain ⟨xs, hxs, hphrase, hleads⟩ := hp.reads hrun
      exact ⟨u :: xs, congrArg (u :: ·) hxs, hphrase, fun vs hvs => leads_optional (hleads vs hvs)⟩
    · rename_i ht
      obtain ⟨xs, rfl, hphrase, hleads⟩ := hq.reads hrun
      rw [words_append] at ht
      refine ⟨xs, rfl, hphrase, fun vs hvs => leads_not_optional ?_ (hleads vs hvs)⟩
      rwa [head?_append_congr hvs]
  fails {stop ts e} hrun := by
    rw [run_optional] at hrun
    split at hrun
    · rename_i ht
      obtain ⟨u, ts, rfl, rfl⟩ := exists_of_head? ht
      obtain ⟨xs, rest, hxs, hphrase, hbalks, herror⟩ := hp.fails hrun
      refine ⟨u :: xs, rest, congrArg (u :: ·) hxs, hphrase, fun vs hvs stop ys hys => ?_, herror⟩
      rw [run_optional, hys, if_pos (by rfl)]
      refine hbalks vs hvs stop ys.tail ?_
      unfold words at hys ⊢
      rw [List.map_tail, hys]
      rfl
    · rename_i ht
      obtain ⟨xs, rest, rfl, hphrase, hbalks, herror⟩ := hq.fails hrun
      rw [words_append] at ht
      refine ⟨xs, rest, rfl, hphrase, fun vs hvs stop ys hys => ?_, herror⟩
      rw [run_optional, hys, if_neg (by rwa [head?_append_congr hvs])]
      exact hbalks vs hvs stop ys hys

theorem run_peek_eq_ok {stop : Nat} {ts : List Located} {t : Option Token} {rest : List Located} :
    Parser.peek.run stop ts = .ok (t, rest) ↔ t = (words ts).head? ∧ rest = ts := by
  cases ts <;> simp [Parser.peek, eq_comm]

/-- where no token is read before an error, the token looked at is the one that comes next -/
theorem Predictive.peek {next : Option Token → Parser α}
    (h : ∀ t, (next t).Predictive phrase fun us u e => (us = [] → u = t) → own us u e) :
    (Parser.peek >>= next).Predictive phrase own where
  inhabited := (h none).inhabited
  reads {stop ts a rest} hrun := by
    obtain ⟨t, mid, hpeek, hrun⟩ := run_bind_eq_ok.1 hrun
    obtain ⟨rfl, rfl⟩ := run_peek_eq_ok.1 hpeek
    obtain ⟨xs, rfl, hphrase, hleads⟩ := (h _).reads hrun
    refine ⟨xs, rfl, hphrase, fun vs hvs => (leads_peek _).bind ?_⟩
    rw [head?_append_congr hvs, ← words_append]
    exact hleads vs hvs
  fails {stop ts e} hrun := by
    obtain ⟨t, mid, hpeek, hrun⟩ := (run_bind_eq_error.1 hrun).resolve_left (by simp [Parser.peek])
    obtain ⟨rfl, rfl⟩ := run_peek_eq_ok.1 hpeek
    obtain ⟨xs, rest, rfl, hphrase, hbalks, herror⟩ := (h _).fails hrun
    refine ⟨xs, rest, rfl, hphrase, fun vs hvs => (leads_peek _).balks ?_, ?_⟩
    · rw [head?_append_congr hvs, ← words_append]
      exact hbalks vs hvs
    · refine herror.imp_right fun hown => hown ?_
      intro hnil
      rw [words_append, hnil]
      rfl

/-! ## lists -/

theorem takeWhileMeans_spec (meaning : Token → Option α) (ts : List Located) :
    ∃ xs, ts = xs ++ (takeWhileMeans meaning ts).2 ∧
      List.Forall₂ (fun a t => meaning t = some a) (takeWhileMeans meaning ts).1 (words xs) ∧
        ∀ t ∈ (words (takeWhileMeans meaning ts).2).head?, meaning t = none := by
  induction ts with
  | nil => exact ⟨[], rfl, .nil, by simp [takeWhileMeans]⟩
  | cons t ts ih =>
    unfold takeWhileMeans
    cases ht : meaning t.token with
    | none =>
      refine ⟨[], rfl, .nil, ?_⟩
      rintro u ⟨⟩
      exact ht
    | some a =>
      obtain ⟨xs, hxs, hread, hend⟩ := ih
      exact ⟨t :: xs, congrArg (t :: ·) hxs, .cons ht hread, hend⟩

theorem predictive_many {meaning : Token → Option α} {item : α → Token → Prop}
    (h : ∀ t a, meaning t = some a → item a t) :
    (many meaning).Predictive (List.Forall₂ item) own where
  inhabited := ⟨[], [], .nil⟩
  reads {stop ts as rest} hrun := by
    obtain rfl : (takeWhileMeans meaning ts).1 = as := congrArg (·.1) (Except.ok.inj hrun)
    obtain rfl : (takeWhileMeans meaning ts).2 = rest := congrArg (·.2) (Except.ok.inj hrun)
    obtain ⟨xs, hxs, hread, hend⟩ := takeWhileMeans_spec meaning ts
    exact ⟨xs, hxs, hread.imp fun a t => h t a, fun vs hvs => leads_many hread (hvs ▸ hend)⟩
  fails hrun := by cases hrun

section
variable {item : Parser α}

theorem reads_commaSeparated (h : item.Predictive phrase own) {stop : Nat} {ts : List Located}
    {as : List α} {rest : List Located}
    (hrun : readCommaSeparated item stop ts = .ok (as, rest)) :
    ∃ xs, ts = xs ++ rest ∧ Phrase.Separated phrase as (words xs) ∧
      ∀ vs, vs.head? = (words rest).head? →
        (commaSeparated item).Leads (words xs ++ vs) as vs := by
  fun_induction readCommaSeparated item stop ts generalizing as rest with
  | case1 ts e he => cases hrun
  | case2 ts a ha =>
    cases hrun
    obtain ⟨xs, rfl, hphrase, hleads⟩ := h.reads ha
    refine ⟨xs, rfl, .one hphrase, fun vs hvs => leads_commaSeparated_last (hleads vs hvs) ?_⟩
    rw [hvs]
    simp
  | case3 ts a t mid ha ht hlt e hrest ih => cases hrun
  | case4 ts a t mid ha ht hlt as' rest' hrest ih =>
    cases hrun
    obtain ⟨xs, rfl, hphrase, hleads⟩ := h.reads ha
    obtain ⟨ys, rfl, hphrases, hleads'⟩ := ih hrest
    refine ⟨xs ++ t :: ys, by rw [List.append_assoc, List.cons_append], ?_, fun vs hvs => ?_⟩
    · rw [words_append, words_cons, ht]
      exact .more hphrase hphrases
    · rw [words_append, words_cons, ht, List.append_assoc, List.cons_append]
      refine leads_commaSeparated_more (hleads _ ?_) (hleads' vs hvs)
      rw [words_cons, ht]
      rfl
  | case5 ts a t mid ha ht =>
    cases hrun
    obtain ⟨xs, rfl, hphrase, hleads⟩ := h.reads ha
    refine ⟨xs, rfl, .one hphrase, fun vs hvs => leads_commaSeparated_last (hleads vs hvs) ?_⟩
    rw [hvs]
    exact fun he => ht (Option.some.inj he)

theorem readCommaSeparated_error {stop : Nat} {ts : List Located} {e : Error}
    (h : item.run stop ts = .error e) : readCommaSeparated item stop ts = .error e := by
  rw [readCommaSeparated]
  split
  · rename_i e' he
    cases h.symm.trans he
    rfl
  · rename_i a ha
    cases h.symm.trans ha
  · rename_i a t mid ha
    cases h.symm.trans ha

theorem readCommaSeparated_more_error {stop : Nat} {ts : List Located} {a : α} {t : Located}
    {mid : List Located} (h : item.run stop ts = .ok (a, t :: mid)) (ht : t.token = .symbol .comma)
    {e : Error} (hrest : readCommaSeparated item stop mid = .error e) :
    readCommaSeparated item stop ts = .error e := by
  rw [readCommaSeparated]
  split
  · rename_i e' he
    cases h.symm.trans he
  · rename_i b hb
    cases h.symm.trans hb
  · rename_i b t' mid' hb
    cases h.symm.trans hb
    rw [if_pos ht, hrest]

theorem Balks.commaSeparated {ts : List Token} {errors : Error → Prop} (h : item.Balks ts errors) :
    (commaSeparated item).Balks ts errors := by
  intro stop xs hxs
  obtain ⟨e, he, hrun⟩ := h stop xs hxs
  exact ⟨e, he, readCommaSeparated_error hrun⟩

theorem Leads.balks_commaSeparated {ts us : List Token} {a : α} {errors : Error → Prop}
    (h : item.Leads ts a (.symbol .comma :: us)) (hrest : (commaSeparated item).Balks us errors) :
    (commaSeparated item).Balks ts errors := by
  intro stop xs hxs
  obtain ⟨mid, hmid, hrun⟩ := h stop xs hxs
  obtain ⟨t, mid, rfl, ht, hmid⟩ := List.map_eq_cons_iff.1 hmid
  obtain ⟨e, he, hrun'⟩ := hrest stop mid hmid
  exact ⟨e, he, readCommaSeparated_more_error hrun ht hrun'⟩

/-- an item that comes after others, with a comma after each, reports its own errors after those -/
theorem fails_commaSeparated
    (h : ∀ as us, Phrase.Followed phrase as us → item.Predictive phrase fun ws => own (us ++ ws))
    {stop : Nat} {ts : List Located} {e : Error}
    (hrun : readCommaSeparated item stop ts = .error e) :
    ∃ xs rest, ts = xs ++ rest ∧ (∃ as us, Phrase.Separated phrase as (words xs ++ us)) ∧
      (∀ vs, vs.head? = (words rest).head? →
        (commaSeparated item).Balks (words xs ++ vs) fun _ => True) ∧
        ((∃ expected, e = unexpected expected stop rest) ∨
          own (words xs) (words rest).head? e) := by
  fun_induction readCommaSeparated item stop ts generalizing own e with
  | case1 ts e' he =>
    cases hrun
    obtain ⟨xs, rest, rfl, ⟨a, us, hphrase⟩, hbalks, herror⟩ := (h [] [] .nil).fails he
    exact ⟨xs, rest, rfl, ⟨[a], us, .one hphrase⟩, fun vs hvs => (hbalks vs hvs).commaSeparated,
      herror⟩
  | case2 ts a ha => cases hrun
  | case3 ts a t mid ha ht hlt e' hrest ih =>
    cases hrun
    obtain ⟨xs, rfl, hphrase, hleads⟩ := (h [] [] .nil).reads ha
    -- what the items to come report is reported after this item and its comma
    let own' (ws : List Token) : Option Token → Error → Prop :=
      own (words xs ++ .symbol .comma :: ws)
    have h' (as : List α) (us : List Token) (hus : Phrase.Followed phrase as us) :
        item.Predictive phrase fun ws => own' (us ++ ws) := by
      have hmore := h (a :: as) _ (.cons hphrase hus)
      simp only [List.append_assoc, List.cons_append] at hmore
      exact hmore
    obtain ⟨ys, rest, rfl, ⟨as, us, hphrases⟩, hbalks, herror⟩ := ih h' hrest
    refine ⟨xs ++ t :: ys, rest, by rw [List.append_assoc, List.cons_append],
      ⟨a :: as, us, ?_⟩, fun vs hvs => ?_, ?_⟩
    · rw [words_append, words_cons, ht, List.append_assoc, List.cons_append]
      exact .more hphrase hphrases
    · rw [words_append, words_cons, ht, List.append_assoc, List.cons_append]
      refine (hleads _ ?_).balks_commaSeparated (hbalks vs hvs)
      rw [words_cons, ht]
      rfl
    · rwa [words_append, words_cons, ht]
  | case4 ts a t mid ha ht hlt as' rest' hrest ih => cases hrun
  | case5 ts a t mid ha ht => cases hrun

theorem Predictive.commaSeparated
    (h : ∀ as us, Phrase.Followed phrase as us → item.Predictive phrase fun ws => own (us ++ ws)) :
    (commaSeparated item).Predictive (Phrase.Separated phrase) own where
  inhabited := by
    obtain ⟨a, us, hphrase⟩ := (h [] [] .nil).inhabited
    exact ⟨[a], us, .one hphrase⟩
  reads hrun := reads_commaSeparated (h [] [] .nil) hrun
  fails hrun := fails_commaSeparated h hrun

end

/-! ## whole texts -/

/-- a value for what has been read to the end -/
def ended (a : α) : Parser α where
  run stop
    | [] => .ok (a, [])
    | t :: ts => .error (unexpected .endOfStatement stop (t :: ts))
  length_le {stop ts b rest} h := by
    cases ts with
    | nil => cases h; exact Nat.le_refl _
    | cons t ts => cases h

theorem predictive_ended {a : α} (h : phrase a []) : (ended a).Predictive phrase own where
  inhabited := ⟨a, [], h⟩
  reads {stop ts b rest} hrun := by
    cases ts with
    | nil =>
      cases hrun
      refine ⟨[], rfl, h, fun vs hvs stop xs hxs => ?_⟩
      obtain rfl : xs = [] := by
        cases xs with
        | nil => rfl
        | cons x xs =>
          obtain rfl : words (x :: xs) = vs := hxs
          cases hvs
      exact ⟨[], hxs, rfl⟩
    | cons t ts => cases hrun
  fails {stop ts e} hrun := by
    cases ts with
    | nil => cases hrun
    | cons t ts =>
      cases hrun
      refine ⟨[], t :: ts, rfl, ⟨a, [], h⟩, fun vs hvs stop xs hxs => ?_, Or.inl ⟨_, rfl⟩⟩
      cases xs with
      | nil =>
        obtain rfl : [] = vs := hxs
        cases hvs
      | cons x xs => exact ⟨_, trivial, rfl⟩

/-- a semicolon or none, and the end -/
def closing (a : α) : Parser α :=
  optional (.symbol .semicolon) >>= fun b => if b = true then ended a else ended a

theorem parse_eq (p : Parser α) (text : TokenList) :
    p.parse text = ((p >>= closing).run text.stop text.tokens).map (·.1) := by
  unfold parse
  rw [run_bind]
  cases p.run text.stop text.tokens with
  | error e => rfl
  | ok r =>
    obtain ⟨a, rest⟩ := r
    dsimp only [closing]
    rw [run_optional]
    cases rest with
    | nil => rfl
    | cons t rest =>
      by_cases ht : t.token = .symbol .semicolon
      · cases rest <;> simp [optional, ht, ended, Except.map]
      · simp [optional, ht, ended, Except.map]

end Parser

end TableStore.Sql
