import TableStore.Json.Basic

/-!
# Lexemes of JSON

* `Json.Token`     punctuation, text, and every other scalar as its tree;
* `Json.token?`    the token at the start of a text, and what follows it;
* `Json.joined?`   the text that characters and halves of surrogate pairs write, when every half has
  its partner right after it.
-/

namespace TableStore.Json

/-- one lexical unit; a text with an unpaired half of a surrogate pair is `none` -/
inductive Token where
  | openArray | closeArray | openObject | closeObject | colon | comma
  | text (s : Option String)
  | scalar (j : Json)

/-! ## text -/

/-- a character of a text, or an escape that is half of a surrogate pair -/
inductive Piece where
  | char (c : Char)
  | half (n : Nat)

/-- the character that two halves of a surrogate pair mean -/
def pair? (high low : Nat) : Option Char :=
  if 0xD800 ≤ high ∧ high < 0xDC00 ∧ 0xDC00 ≤ low ∧ low < 0xE000 then
    some (Char.ofNat (0x10000 + (high - 0xD800) * 0x400 + (low - 0xDC00)))
  else none

/-- the text that pieces write; `done` is what came before, the last character first -/
def joined? (done : List Char) : List Piece → Option (List Char)
  | [] => some done.reverse
  | .char c :: ps => joined? (c :: done) ps
  | .half high :: .half low :: ps => (pair? high low).bind fun c => joined? (c :: done) ps
  | .half _ :: _ => none

/-- the value of a hexadecimal digit of either case -/
def hexDigit? (c : Char) : Option Nat :=
  if c.isDigit then some (c.toNat - '0'.toNat)
  else if 'a' ≤ c ∧ c ≤ 'f' then some (c.toNat - 'a'.toNat + 10)
  else if 'A' ≤ c ∧ c ≤ 'F' then some (c.toNat - 'A'.toNat + 10)
  else none

/-- the piece that four hexadecimal digits mean -/
def unit? (a b c d : Char) : Option Piece :=
  match hexDigit? a, hexDigit? b, hexDigit? c, hexDigit? d with
  | some a, some b, some c, some d =>
    let n := ((a * 16 + b) * 16 + c) * 16 + d
    if 0xD800 ≤ n ∧ n < 0xE000 then some (.half n) else some (.char (Char.ofNat n))
  | _, _, _, _ => none

/-- the character that a letter means after a backslash -/
def unescape? : Char → Option Char
  | '"' => some '"'
  | '\\' => some '\\'
  | '/' => some '/'
  | 'b' => some '\x08'
  | 'f' => some '\x0c'
  | 'n' => some '\n'
  | 'r' => some '\r'
  | 't' => some '\t'
  | _ => none

/-- the pieces up to the closing quote, and what follows; `done` is what came before, the last piece
first -/
def pieces? (done : List Piece) : List Char → Option (List Piece × List Char)
  | '"' :: cs => some (done.reverse, cs)
  | '\\' :: 'u' :: a :: b :: c :: d :: cs =>
    match unit? a b c d with
    | some p => pieces? (p :: done) cs
    | none => none
  | '\\' :: e :: cs =>
    match unescape? e with
    | some c => pieces? (.char c :: done) cs
    | none => none
  | c :: cs => if c = '\\' ∨ c.toNat < 0x20 then none else pieces? (.char c :: done) cs
  | [] => none

def textToken? (cs : List Char) : Option (Token × List Char) :=
  (pieces? [] cs).map fun r => (.text ((joined? [] r.1).map String.ofList), r.2)

/-! ## numerals -/

def digits? (cs : List Char) : Option (List Char × List Char) :=
  match cs.takeWhile Char.isDigit with
  | [] => none
  | ds => some (ds, cs.dropWhile Char.isDigit)

/-- a sign before the digits of an exponent, skipped -/
def skipSign : List Char → List Char
  | '+' :: cs => cs
  | '-' :: cs => cs
  | cs => cs

/-- what follows a fraction, if a point starts one; whether there was one -/
def fraction? : List Char → Option (Bool × List Char)
  | '.' :: cs => (digits? cs).map fun r => (true, r.2)
  | cs => some (false, cs)

/-- what follows an exponent, if an `e` starts one; whether there was one -/
def exponent? : List Char → Option (Bool × List Char)
  | 'e' :: cs => (digits? (skipSign cs)).map fun r => (true, r.2)
  | 'E' :: cs => (digits? (skipSign cs)).map fun r => (true, r.2)
  | cs => some (false, cs)

def ofNumeral (negative fractional : Bool) (digits : List Char) : Json :=
  let n := Numeral.ofDigits digits
  if fractional then foreign
  else if negative then (if n = 0 then foreign else int (-n))
  else int n

/-- a numeral; zero alone may start with a zero -/
def numeral? (negative : Bool) (cs : List Char) : Option (Token × List Char) :=
  match digits? cs with
  | none => none
  | some (digits, cs) =>
    if digits.head? = some '0' ∧ digits ≠ ['0'] then none
    else
      match fraction? cs with
      | none => none
      | some (fraction, cs) =>
        (exponent? cs).map fun r =>
          (.scalar (ofNumeral negative (fraction || r.1) digits), r.2)

/-! ## tokens -/

def isBlank (c : Char) : Bool := c = ' ' || c = '\t' || c = '\n' || c = '\r'

/-- the token that starts with `c` and goes on in `cs`, and what follows -/
def token? (c : Char) (cs : List Char) : Option (Token × List Char) :=
  match c, cs with
  | '[', cs => some (.openArray, cs)
  | ']', cs => some (.closeArray, cs)
  | '\x7b', cs => some (.openObject, cs)
  | '\x7d', cs => some (.closeObject, cs)
  | ':', cs => some (.colon, cs)
  | ',', cs => some (.comma, cs)
  | '"', cs => textToken? cs
  | 'n', 'u' :: 'l' :: 'l' :: cs => some (.scalar null, cs)
  | 't', 'r' :: 'u' :: 'e' :: cs => some (.scalar (bool true), cs)
  | 'f', 'a' :: 'l' :: 's' :: 'e' :: cs => some (.scalar (bool false), cs)
  | '-', cs => numeral? true cs
  | c, cs => if c.isDigit then numeral? false (c :: cs) else none

/-! ## a token takes one character or more -/

theorem length_of_pieces? {done ps : List Piece} {cs rest : List Char}
    (h : pieces? done cs = some (ps, rest)) : rest.length < cs.length := by
  fun_induction pieces? done cs with
  | case1 =>
    cases h
    exact Nat.lt_succ_self _
  | case2 done a b c d cs p hp ih =>
    have := ih h
    simp only [List.length_cons]
    omega
  | case3 => contradiction
  | case4 done e cs _ c hc ih =>
    have := ih h
    simp only [List.length_cons]
    omega
  | case5 => contradiction
  | case6 => contradiction
  | case7 done c cs _ _ _ _ ih => exact Nat.lt_succ_of_lt (ih h)
  | case8 => contradiction

theorem length_of_textToken? {t : Token} {cs rest : List Char}
    (h : textToken? cs = some (t, rest)) : rest.length < cs.length := by
  unfold textToken? at h
  obtain ⟨⟨ps, mid⟩, hp, he⟩ := Option.map_eq_some_iff.1 h
  cases he
  exact length_of_pieces? hp

theorem length_of_digits? {cs ds rest : List Char} (h : digits? cs = some (ds, rest)) :
    rest.length < cs.length := by
  unfold digits? at h
  split at h
  · contradiction
  · rename_i hne
    cases h
    have hl := congrArg List.length (List.takeWhile_append_dropWhile (p := Char.isDigit) (l := cs))
    rw [List.length_append] at hl
    have : 0 < (cs.takeWhile Char.isDigit).length := List.length_pos_iff.2 fun e => hne e
    omega

theorem length_skipSign (cs : List Char) : (skipSign cs).length ≤ cs.length := by
  unfold skipSign
  split <;> simp

theorem length_of_fraction? {b : Bool} {cs rest : List Char} (h : fraction? cs = some (b, rest)) :
    rest.length ≤ cs.length := by
  unfold fraction? at h
  split at h
  · obtain ⟨⟨ds, mid⟩, hd, he⟩ := Option.map_eq_some_iff.1 h
    cases he
    have := length_of_digits? hd
    simp only [List.length_cons]
    omega
  · cases h; exact Nat.le_refl _

theorem length_of_exponent? {b : Bool} {cs rest : List Char} (h : exponent? cs = some (b, rest)) :
    rest.length ≤ cs.length := by
  unfold exponent? at h
  split at h
  · rename_i cs
    obtain ⟨⟨ds, mid⟩, hd, he⟩ := Option.map_eq_some_iff.1 h
    cases he
    have := length_of_digits? hd
    have := length_skipSign cs
    simp only [List.length_cons]
    omega
  · rename_i cs
    obtain ⟨⟨ds, mid⟩, hd, he⟩ := Option.map_eq_some_iff.1 h
    cases he
    have := length_of_digits? hd
    have := length_skipSign cs
    simp only [List.length_cons]
    omega
  · cases h; exact Nat.le_refl _

theorem length_of_numeral? {negative : Bool} {t : Token} {cs rest : List Char}
    (h : numeral? negative cs = some (t, rest)) : rest.length < cs.length := by
  unfold numeral? at h
  split at h
  · contradiction
  · rename_i hd
    split at h
    · contradiction
    · split at h
      · contradiction
      · rename_i hf
        obtain ⟨⟨b, mid⟩, he, ht⟩ := Option.map_eq_some_iff.1 h
        cases ht
        have := length_of_digits? hd
        have := length_of_fraction? hf
        have := length_of_exponent? he
        dsimp only
        omega

theorem length_of_token? {c : Char} {cs rest : List Char} {t : Token}
    (h : token? c cs = some (t, rest)) : rest.length ≤ cs.length := by
  unfold token? at h
  split at h
  case h_7 => exact Nat.le_of_lt (length_of_textToken? h)
  case h_11 => exact Nat.le_of_lt (length_of_numeral? h)
  case h_12 =>
    split at h
    · exact Nat.le_of_lt_succ (length_of_numeral? h)
    · contradiction
  case h_8 => cases h; exact Nat.le_add_right _ 3
  case h_9 => cases h; exact Nat.le_add_right _ 3
  case h_10 => cases h; exact Nat.le_add_right _ 4
  all_goals cases h; exact Nat.le_refl _

end TableStore.Json
