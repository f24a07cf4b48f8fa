import TableStore.Error

/-!
# Parsers of token lists

A parser reads a value from the front of a list of tokens, or says what it expected at the first
token it cannot use. It never lengthens the list, so a list of items with commas between them is
read by recursion on the tokens left.

* `Parser`                   with `length_le`: the rest is no longer than the input;
* `Parser.take`              one token of a kind;
* `Parser.commaSeparated`    one or more items with commas between them;
* `Parser.parse`             a value from all tokens of a text.
-/

namespace TableStore.Sql

/-- reads a value from the tokens of a text that ends at byte `stop`, and leaves the rest -/
structure Parser (α : Type) where
  run : (stop : Nat) → List Located → Except Error (α × List Located)
  length_le : ∀ {stop ts a rest}, run stop ts = .ok (a, rest) → rest.length ≤ ts.length

namespace Parser

variable {α β : Type}

def pure (a : α) : Parser α where
  run _ ts := .ok (a, ts)
  length_le h := by cases h; exact Nat.le_refl _

/-- reads one value, then another that may depend on it -/
def bind (p : Parser α) (next : α → Parser β) : Parser β where
  run stop ts :=
    match p.run stop ts with
    | .ok (a, rest) => (next a).run stop rest
    | .error e => .error e
  length_le {stop ts b rest} h := by
    split at h
    · rename_i a mid hp
      exact Nat.le_trans ((next a).length_le h) (p.length_le hp)
    · contradiction

instance : Monad Parser where
  pure := Parser.pure
  bind := Parser.bind

theorem run_bind (p : Parser α) (next : α → Parser β) (stop : Nat) (ts : List Located) :
    (p >>= next).run stop ts =
      match p.run stop ts with
      | .ok (a, rest) => (next a).run stop rest
      | .error e => .error e := rfl

/-! ## one token -/

/-- the byte where the first token starts, or where the text ends -/
def offsetOf (stop : Nat) : List Located → Nat
  | [] => stop
  | t :: _ => t.offset

/-- the first token, or the end of the text -/
def foundIn : List Located → Found
  | [] => .stop
  | t :: _ => .token t.token

/-- the failure at the first token -/
def unexpected (expected : Expected) (stop : Nat) (ts : List Located) : Error :=
  .parse expected (foundIn ts) (offsetOf stop ts)

/-- fails at the first token -/
def refuse (expected : Expected) : Parser α where
  run stop ts := .error (unexpected expected stop ts)
  length_le h := by cases h

/-- fails for a reason of its own -/
def fail (e : Error) : Parser α where
  run _ _ := .error e
  length_le h := by cases h

def offset : Parser Nat where
  run stop ts := .ok (offsetOf stop ts, ts)
  length_le h := by cases h; exact Nat.le_refl _

/-- the next token, left where it is -/
def peek : Parser (Option Token) where
  run _ ts := .ok (ts.head?.map (·.token), ts)
  length_le h := by cases h; exact Nat.le_refl _

/-- the meaning of the next token, taken if it has one -/
def take (expected : Expected) (meaning : Token → Option α) : Parser α where
  run stop
    | [] => .error (unexpected expected stop [])
    | t :: ts =>
      match meaning t.token with
      | some a => .ok (a, ts)
      | none => .error (unexpected expected stop (t :: ts))
  length_le {stop ts a rest} h := by
    cases ts with
    | nil => cases h
    | cons t ts =>
      dsimp only at h
      split at h
      · cases h; exact Nat.le_succ _
      · cases h

/-- this token and no other -/
def exactly (t : Token) : Parser Unit :=
  take (.token t) fun u => if u = t then some () else none

def keyword (k : Keyword) : Parser Unit := exactly (.keyword k)

def symbol (s : Symbol) : Parser Unit := exactly (.symbol s)

/-- takes the next token if it is this one, and says whether it was -/
def optional (t : Token) : Parser Bool where
  run _
    | [] => .ok (false, [])
    | u :: ts => if u.token = t then .ok (true, ts) else .ok (false, u :: ts)
  length_le {stop ts a rest} h := by
    cases ts with
    | nil => cases h; exact Nat.le_refl _
    | cons t ts =>
      dsimp only at h
      split at h
      · cases h; exact Nat.le_succ _
      · cases h; exact Nat.le_refl _

/-! ## lists -/

/-- the meanings of the tokens at the front, and the tokens from the first without one on -/
def takeWhileMeans (meaning : Token → Option α) : List Located → List α × List Located
  | [] => ([], [])
  | t :: ts =>
    match meaning t.token with
    | none => ([], t :: ts)
    | some a => (a :: (takeWhileMeans meaning ts).1, (takeWhileMeans meaning ts).2)

theorem length_takeWhileMeans (meaning : Token → Option α) (ts : List Located) :
    (takeWhileMeans meaning ts).2.length ≤ ts.length := by
  induction ts with
  | nil => exact Nat.le_refl _
  | cons t ts ih =>
    unfold takeWhileMeans
    split
    · exact Nat.le_refl _
    · exact Nat.le_trans ih (Nat.le_succ _)

/-- as many tokens as have a meaning -/
def many (meaning : Token → Option α) : Parser (List α) where
  run _ ts := .ok (takeWhileMeans meaning ts)
  length_le {stop ts a rest} h := by
    have := length_takeWhileMeans meaning ts
    rw [Except.ok.inj h] at this
    exact this

/-- one or more items, a comma before each but the first -/
def readCommaSeparated (item : Parser α) (stop : Nat) (ts : List Located) :
    Except Error (List α × List Located) :=
  match h : item.run stop ts with
  | .error e => .error e
  | .ok (a, []) => .ok ([a], [])
  | .ok (a, t :: rest) =>
    if t.token = .symbol .comma then
      have : rest.length < ts.length := item.length_le h
      match readCommaSeparated item stop rest with
      | .error e => .error e
      | .ok (as, rest) => .ok (a :: as, rest)
    else .ok ([a], t :: rest)
termination_by ts.length

theorem length_readCommaSeparated (item : Parser α) (stop : Nat) (ts : List Located)
    {as : List α} {rest : List Located} (h : readCommaSeparated item stop ts = .ok (as, rest)) :
    rest.length ≤ ts.length := by
  fun_induction readCommaSeparated item stop ts generalizing as rest with
  | case1 => contradiction
  | case2 ts a hi => cases h; exact item.length_le hi
  | case3 => simp_all
  | case4 ts a t mid hi ht hlt as' rest' hr ih =>
    simp only [Except.ok.injEq, Prod.mk.injEq] at h
    obtain ⟨-, rfl⟩ := h
    exact Nat.le_trans (ih hr) (Nat.le_of_lt hlt)
  | case5 ts a t mid hi ht => cases h; exact item.length_le hi

/-- one or more items with commas between them -/
def commaSeparated (item : Parser α) : Parser (List α) where
  run := readCommaSeparated item
  length_le := length_readCommaSeparated item _ _

/-! ## a whole text -/

/-- a value from all the tokens of a text, the last of them perhaps a semicolon -/
def parse (p : Parser α) (text : TokenList) : Except Error α :=
  match p.run text.stop text.tokens with
  | .error e => .error e
  | .ok (a, rest) =>
    match (optional (.symbol .semicolon)).run text.stop rest with
    | .error e => .error e
    | .ok (_, []) => .ok a
    | .ok (_, rest) => .error (unexpected .endOfStatement text.stop rest)

end Parser

end TableStore.Sql
