import TableStore.Text.Printable

/-!
# Quoted text

Messages show a name or a character between quotes, so that every character of it can be seen: the
five common controls and the quote itself by a backslash, everything without a glyph of its own by
its code point.

* `quoted s`       a text between double quotes;
* `quotedChar c`   a character between single quotes.
-/

namespace TableStore.Text

/-- the code point in lower-case hexadecimal, between braces -/
def codePoint (c : Char) : List Char :=
  ['\\', 'u', '\x7b'] ++ Nat.toDigits 16 c.toNat ++ ['\x7d']

/-- how a character is shown between two quotes -/
def shown (quote c : Char) : List Char :=
  if c = '\x00' then ['\\', '0']
  else if c = '\t' then ['\\', 't']
  else if c = '\n' then ['\\', 'n']
  else if c = '\r' then ['\\', 'r']
  else if c = '\\' ∨ c = quote then ['\\', c]
  else if isPrintable c then [c]
  else codePoint c

def quoted (s : String) : String :=
  String.ofList ('"' :: s.toList.flatMap (shown '"') ++ ['"'])

def quotedChar (c : Char) : String :=
  String.ofList ('\'' :: shown '\'' c ++ ['\''])

example : quoted "a\"b'\n\u200b" = "\"a\\\"b'\\n\\u\x7b200b\x7d\"" := by decide +kernel
example : quotedChar '\'' = "'\\''" ∧ quotedChar '"' = "'\"'" := by decide +kernel

end TableStore.Text
