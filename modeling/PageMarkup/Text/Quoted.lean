import PageMarkup.Text.Printable

/-!
# Quoted texts

A text inside double quotes, on one line and readable: quotes and backslashes are escaped, the
usual controls have short escapes, and every other character that would not show is written with
its code point in hexadecimal.
-/

namespace PageMarkup.Text

/-- Escape of a character by its code point, without leading zeros. -/
def codePointEscape (c : Char) : List Char :=
  ['\\', 'u', '\x7b'] ++ Nat.toDigits 16 c.toNat ++ ['\x7d']

/-- A character as it stands inside quotes. -/
def quoteChar (c : Char) : List Char :=
  if c = '"' then ['\\', '"']
  else if c = '\\' then ['\\', '\\']
  else if c = '\t' then ['\\', 't']
  else if c = '\n' then ['\\', 'n']
  else if c = '\r' then ['\\', 'r']
  else if c.toNat = 0 then ['\\', '0']
  else if isPrintable c then [c]
  else codePointEscape c

/-- A text in double quotes. -/
def quote (s : String) : String :=
  String.ofList ('"' :: (s.toList.flatMap quoteChar ++ ['"']))

end PageMarkup.Text
