import RunLoop.Text.Shown

/-!
# Texts in double quotes

A text is shown between double quotes with the quote, the backslash and characters that do not show
themselves escaped, so that it stays on one line and can be read back.

* `Quoted.quote` writes a text.
* `Quoted.escape` writes one character of it.
-/

namespace RunLoop.Text.Quoted

/-- The lower-case hexadecimal digits of `n`, without padding. -/
def hex (n : Nat) : List Char :=
  Nat.toDigits 16 n

/-- One character as it stands between the quotes. -/
def escape (c : Char) : List Char :=
  if c = '"' then ['\\', '"']
  else if c = '\\' then ['\\', '\\']
  else if c = '\n' then ['\\', 'n']
  else if c = '\r' then ['\\', 'r']
  else if c = '\t' then ['\\', 't']
  else if c = '\x00' then ['\\', '0']
  else if isShown c then [c]
  else ['\\', 'u', '\x7b'] ++ hex c.toNat ++ ['\x7d']

/-- A text between double quotes, character by character. -/
def quote (t : String) : String :=
  String.ofList ('"' :: t.toList.flatMap escape ++ ['"'])

end RunLoop.Text.Quoted
