import TableStore.Json.Basic

/-!
# Printing JSON

* `Json.quote`     a text between double quotes; the seven characters with a short escape use it,
  and the other controls below the space are written by their number;
* `Json.compact`   a tree on one line without blanks;
* `Json.pretty`    one item or member per line, two blanks further in for each level.
-/

namespace TableStore.Json

/-! ## text -/

/-- the escape that writes a character, or the character itself -/
def escape (c : Char) : List Char :=
  if c = '"' then ['\\', '"']
  else if c = '\\' then ['\\', '\\']
  else if c = '\x08' then ['\\', 'b']
  else if c = '\x0c' then ['\\', 'f']
  else if c = '\n' then ['\\', 'n']
  else if c = '\r' then ['\\', 'r']
  else if c = '\t' then ['\\', 't']
  else if c.toNat < 0x20 then
    ['\\', 'u', '0', '0', Nat.digitChar (c.toNat / 16), Nat.digitChar (c.toNat % 16)]
  else [c]

def quote (s : String) : List Char := '"' :: s.toList.flatMap escape ++ ['"']

/-! ## trees -/

def ofBool : Bool → List Char
  | true => ['t', 'r', 'u', 'e']
  | false => ['f', 'a', 'l', 's', 'e']

def nullWord : List Char := ['n', 'u', 'l', 'l']

/-- a numeral that is no integer of a document -/
def foreignWord : List Char := ['-', '0']

mutual

def compactChars : Json → List Char
  | null => nullWord
  | bool b => ofBool b
  | int n => Numeral.ofInt n
  | string s => quote s
  | array items => '[' :: compactItems items ++ [']']
  | object members => '\x7b' :: compactMembers members ++ ['\x7d']
  | foreign => foreignWord

def compactItems : List Json → List Char
  | [] => []
  | [j] => compactChars j
  | j :: js => compactChars j ++ ',' :: compactItems js

def compactMembers : List (String × Json) → List Char
  | [] => []
  | [(k, j)] => quote k ++ ':' :: compactChars j
  | (k, j) :: ms => quote k ++ ':' :: compactChars j ++ ',' :: compactMembers ms

end

/-- a new line, as far in as its level asks -/
def newline (level : Nat) : List Char := '\n' :: List.replicate (2 * level) ' '

mutual

/-- a tree over several lines, the first of them at the given level -/
def prettyChars (level : Nat) : Json → List Char
  | null => nullWord
  | bool b => ofBool b
  | int n => Numeral.ofInt n
  | string s => quote s
  | array [] => ['[', ']']
  | array (j :: js) => '[' :: prettyItems (level + 1) (j :: js) ++ newline level ++ [']']
  | object [] => ['\x7b', '\x7d']
  | object (m :: ms) =>
    '\x7b' :: prettyMembers (level + 1) (m :: ms) ++ newline level ++ ['\x7d']
  | foreign => foreignWord

def prettyItems (level : Nat) : List Json → List Char
  | [] => []
  | [j] => newline level ++ prettyChars level j
  | j :: js => newline level ++ prettyChars level j ++ ',' :: prettyItems level js

def prettyMembers (level : Nat) : List (String × Json) → List Char
  | [] => []
  | [(k, j)] => newline level ++ quote k ++ ':' :: ' ' :: prettyChars level j
  | (k, j) :: ms =>
    newline level ++ quote k ++ ':' :: ' ' :: prettyChars level j ++ ',' :: prettyMembers level ms

end

/-- a tree on one line without blanks -/
def compact (j : Json) : String := String.ofList (compactChars j)

/-- a tree over several lines, without a line end after the last -/
def pretty (j : Json) : String := String.ofList (prettyChars 0 j)

example : (object [("a", array [int (-1), null]), ("b", array [])]).compact
    = "\x7b\"a\":[-1,null],\"b\":[]\x7d" := by decide +kernel
example : (object [("a", array [int (-1), null]), ("b", array [])]).pretty
    = "\x7b\n  \"a\": [\n    -1,\n    null\n  ],\n  \"b\": []\n\x7d" := by decide +kernel

end TableStore.Json
