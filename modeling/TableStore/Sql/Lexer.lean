import TableStore.Error
import TableStore.Text.Blank

/-!
# From text to tokens

The text is read lexeme by lexeme, blanks between them skipped; each lexeme is the longest one that
can start at its place.

* `Lexeme.read`         the lexeme at the start of a text, with the characters it takes and those
  left;
* `Lexeme.takes_read`   it takes the first character, and no character is lost;
* `lex`                 the tokens of a text with the bytes where they start.
-/

namespace TableStore.Sql

def byteLength (cs : List Char) : Nat := cs.foldr (fun c n => c.utf8Size + n) 0

def isNameStart (c : Char) : Bool := c.isAlpha || c = '_'

def isNameRest (c : Char) : Bool := c.isAlphanum || c = '_'

/-- a token, the characters that write it, and those after them -/
structure Lexeme where
  token : Token
  chars : List Char
  rest : List Char

namespace Lexeme

/-- the word `word` as a keyword or a name -/
def ofWord (word : List Char) : Token :=
  match Keyword.ofWord? word with
  | some k => .keyword k
  | none => .identifier (String.ofList word)

/-- a character that is a symbol whatever follows -/
def punctuation? : Char → Option Symbol
  | '(' => some .leftParen
  | ')' => some .rightParen
  | ',' => some .comma
  | ';' => some .semicolon
  | '*' => some .star
  | '.' => some .dot
  | _ => none

/-- a character that is an operator, alone and with an equals sign after it -/
def operator? : Char → Option (Symbol × Symbol)
  | '=' => some (.equal, .doubleEqual)
  | '<' => some (.less, .lessEqual)
  | '>' => some (.greater, .greaterEqual)
  | '!' => some (.bang, .notEqual)
  | _ => none

def unescape : Char → Char
  | 'n' => '\n'
  | 't' => '\t'
  | c => c

/-- the text up to the closing quote, the characters that write it with that quote, and the rest;
`text` and `chars` hold what came before, the last character first -/
def string? (quote : Char) (text chars : List Char) :
    List Char → Option (List Char × List Char × List Char)
  | [] => none
  | [c] => if c = quote then some (text.reverse, (c :: chars).reverse, []) else none
  | c :: d :: cs =>
    if c = quote then some (text.reverse, (c :: chars).reverse, d :: cs)
    else if c = '\\' then string? quote (unescape d :: text) (d :: c :: chars) cs
    else string? quote (c :: text) (c :: chars) (d :: cs)

def word (c : Char) (cs : List Char) : Lexeme :=
  let chars := c :: cs.takeWhile isNameRest
  ⟨ofWord chars, chars, cs.dropWhile isNameRest⟩

def number (c : Char) (cs : List Char) : Except LexicalFault Lexeme :=
  let digits := c :: cs.takeWhile Char.isDigit
  match Numeral.word? (Numeral.ofDigits digits) with
  | some n => .ok ⟨.number n, digits, cs.dropWhile Char.isDigit⟩
  | none => .error (.integerTooLarge (String.ofList digits))

def string (quote : Char) (cs : List Char) : Except LexicalFault Lexeme :=
  match string? quote [] [quote] cs with
  | some (text, chars, rest) => .ok ⟨.string (String.ofList text), chars, rest⟩
  | none => .error .unterminated

/-- an operator, with the equals sign after it if there is one -/
def operator (c : Char) (alone withEqual : Symbol) : List Char → Lexeme
  | '=' :: cs => ⟨.symbol withEqual, [c, '='], cs⟩
  | cs => ⟨.symbol alone, [c], cs⟩

/-- the lexeme that starts with `c` and goes on in `cs` -/
def read (c : Char) (cs : List Char) : Except LexicalFault Lexeme :=
  match punctuation? c, operator? c with
  | some s, _ => .ok ⟨.symbol s, [c], cs⟩
  | none, some (alone, withEqual) => .ok (operator c alone withEqual cs)
  | none, none =>
    if isNameStart c then .ok (word c cs)
    else if c.isDigit then number c cs
    else if c = '\'' ∨ c = '"' then string c cs
    else .error (.unexpected c)

/-! ## a lexeme takes the first characters, at least one -/

/-- the lexeme takes `c` and then the first characters of `cs` -/
def Takes (l : Lexeme) (c : Char) (cs : List Char) : Prop :=
  ∃ ds, l.chars = c :: ds ∧ ds ++ l.rest = cs

theorem Takes.append {l : Lexeme} {c : Char} {cs : List Char} (h : l.Takes c cs) :
    l.chars ++ l.rest = c :: cs := by
  obtain ⟨ds, hc, hr⟩ := h
  rw [hc, List.cons_append, hr]

theorem Takes.length_le {l : Lexeme} {c : Char} {cs : List Char} (h : l.Takes c cs) :
    l.rest.length ≤ cs.length := by
  obtain ⟨ds, -, hr⟩ := h
  rw [← hr, List.length_append]
  exact Nat.le_add_left _ _

theorem takes_word (c : Char) (cs : List Char) : (word c cs).Takes c cs :=
  ⟨cs.takeWhile isNameRest, rfl, List.takeWhile_append_dropWhile⟩

theorem takes_number {c : Char} {cs : List Char} {l : Lexeme} (h : number c cs = .ok l) :
    l.Takes c cs := by
  rw [number] at h
  split at h
  · cases h
    exact ⟨cs.takeWhile Char.isDigit, rfl, List.takeWhile_append_dropWhile⟩
  · contradiction

theorem append_of_string? {quote : Char} {text chars cs text' chars' rest : List Char}
    (h : string? quote text chars cs = some (text', chars', rest)) :
    ∃ ds, chars' = chars.reverse ++ ds ∧ ds ++ rest = cs := by
  fun_induction string? quote text chars cs with
  | case1 => contradiction
  | case2 text chars =>
    cases h
    exact ⟨[quote], List.reverse_cons, rfl⟩
  | case3 => contradiction
  | case4 text chars d cs =>
    cases h
    exact ⟨[quote], List.reverse_cons, rfl⟩
  | case5 text chars d cs hq ih =>
    obtain ⟨ds, hc, hr⟩ := ih h
    exact ⟨'\\' :: d :: ds, by simp [hc], by simp [hr]⟩
  | case6 text chars c d cs hq hb ih =>
    obtain ⟨ds, hc, hr⟩ := ih h
    exact ⟨c :: ds, by simp [hc], by simp [hr]⟩

theorem takes_string {quote : Char} {cs : List Char} {l : Lexeme} (h : string quote cs = .ok l) :
    l.Takes quote cs := by
  rw [string] at h
  split at h
  · rename_i hs
    cases h
    exact append_of_string? hs
  · contradiction

theorem takes_operator (c : Char) (alone withEqual : Symbol) (cs : List Char) :
    (operator c alone withEqual cs).Takes c cs := by
  rw [operator.eq_def]
  split
  · exact ⟨['='], rfl, rfl⟩
  · exact ⟨[], rfl, rfl⟩

theorem takes_read {c : Char} {cs : List Char} {l : Lexeme} (h : read c cs = .ok l) :
    l.Takes c cs := by
  rw [read] at h
  split at h
  · cases h
    exact ⟨[], rfl, rfl⟩
  · cases h
    exact takes_operator ..
  · split at h
    · cases h
      exact takes_word ..
    · split at h
      · exact takes_number h
      · split at h
        · exact takes_string h
        · contradiction

end Lexeme

/-- the tokens of the characters from byte `offset` on -/
def lexFrom (offset : Nat) : List Char → Except Error (List Located)
  | [] => .ok []
  | c :: cs =>
    if Text.isBlank c then lexFrom (offset + c.utf8Size) cs
    else
      match h : Lexeme.read c cs with
      | .error fault => .error (.lexical fault offset)
      | .ok l =>
        have := (Lexeme.takes_read h).length_le
        (lexFrom (offset + byteLength l.chars) l.rest).map (⟨l.token, offset⟩ :: ·)
termination_by cs => cs.length
decreasing_by all_goals simp only [List.length_cons]; omega

def lex (text : String) : Except Error TokenList :=
  (lexFrom 0 text.toList).map fun tokens => ⟨tokens, byteLength text.toList⟩

end TableStore.Sql
