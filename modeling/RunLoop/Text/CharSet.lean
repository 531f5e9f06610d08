/-!
# Sets of characters

A set of characters is a list of ranges, written as text: the first and the last code point of each
range in upper-case hexadecimal digits, or one number for a range of one character.

* `CharSet.ofLines` reads a set, `CharSet.mem` tells whether a character is in it.
-/

namespace RunLoop.Text

/-- The characters from `first` to `last`, both included. -/
structure CharRange where
  first : Nat
  last : Nat
  deriving DecidableEq

/-- A set of characters. -/
abbrev CharSet := List CharRange

namespace CharRange

/-- Whether a character is in a range. -/
def mem (r : CharRange) (c : Char) : Bool :=
  r.first ≤ c.toNat && c.toNat ≤ r.last

end CharRange

/-- The number that a list of hexadecimal digits writes, with upper-case letters. -/
def ofHex (digits : List Char) : Nat :=
  digits.foldl
    (fun n c => 16 * n + if c.isDigit then c.toNat - '0'.toNat else c.toNat - 'A'.toNat + 10) 0

namespace CharSet

/-- The range that a word writes. -/
def range (word : String) : CharRange :=
  match word.splitOn "-" with
  | [first, last] => ⟨ofHex first.toList, ofHex last.toList⟩
  | _ => ⟨ofHex word.toList, ofHex word.toList⟩

/-- The set that lines of text write, the ranges on a line separated by blanks. -/
def ofLines (lines : List String) : CharSet :=
  lines.flatMap (fun line => (line.splitOn " ").map range)

/-- Whether a character is in a set. -/
def mem (s : CharSet) (c : Char) : Bool :=
  s.any (·.mem c)

end CharSet

end RunLoop.Text
