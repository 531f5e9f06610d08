import RunLoop.Text.Identifier

/-!
# Literals

A literal is a number, a character or a quoted text, with an identifier directly behind it as a
suffix. The functions here tell what follows a literal, and refuse a text that does not begin with
one.

* `Literal.rest?` tells what follows any literal.
* `Literal.restOfQuoted?`, `Literal.restOfRaw?` tell what follows a quoted text, with escapes and
  without.
* `Literal.restOfFloat?`, `Literal.restOfInteger?` tell what follows a number.
-/

namespace RunLoop.Attribute

/-- What follows an identifier. -/
def restOfIdentifier? : List Char → Option (List Char)
  | c :: cs =>
      if Text.startsIdentifier c then some (cs.dropWhile Text.continuesIdentifier) else none
  | [] => none

namespace Literal

/-- What follows a suffix; a literal may have none. -/
def restOfSuffix (cs : List Char) : List Char :=
  (restOfIdentifier? cs).getD cs

/-! ## Quoted texts -/

/-- What a quoted text is made of: characters, bytes, or characters other than NUL. -/
inductive Content where
  | text
  | bytes
  | terminated
  deriving DecidableEq

/-- Whether a character can stand for itself. -/
def Content.allows : Content → Char → Bool
  | text, _ => true
  | bytes, c => c.toNat < 0x80
  | terminated, c => c.toNat ≠ 0

/-- The value of a hexadecimal digit. -/
def hexValue? (c : Char) : Option Nat :=
  if c.isDigit then some (c.toNat - '0'.toNat)
  else if 'a' ≤ c && c ≤ 'f' then some (c.toNat - 'a'.toNat + 10)
  else if 'A' ≤ c && c ≤ 'F' then some (c.toNat - 'A'.toNat + 10)
  else none

/-- Whether a number is the code point of a character. -/
def isCodePoint (n : Nat) : Bool :=
  n < 0xd800 || (0xe000 ≤ n && n < 0x110000)

/-- Where a reader of a quoted text stands. -/
inductive Place where
  /-- Between two characters. -/
  | plain
  /-- Behind a carriage return, which a line feed has to follow. -/
  | carriage
  /-- Behind a backslash. -/
  | escape
  /-- At the first of two hexadecimal digits. -/
  | hexFirst
  /-- At the second of them. -/
  | hexSecond (first : Nat)
  /-- At the brace in front of a code point. -/
  | codeStart
  /-- In a code point, of which some digits are read. -/
  | code (value digits : Nat)
  /-- In the white space behind an escaped line break. -/
  | gap
  /-- Behind a carriage return in such white space. -/
  | gapCarriage
  deriving DecidableEq

namespace Place

/-- The place behind a character that stands for itself. -/
def ofPlain? (k : Content) (c : Char) : Option Place :=
  if c = '\\' then some escape
  else if c = '\r' then some carriage
  else if k.allows c then some plain
  else none

/-- The place behind the character after a backslash. -/
def ofEscape? (k : Content) (c : Char) : Option Place :=
  if ['n', 'r', 't', '\\', '\'', '"'].contains c then some plain
  else if c = '0' then if k = .terminated then none else some plain
  else if c = 'x' then some hexFirst
  else if c = 'u' then if k = .bytes then none else some codeStart
  else if c = '\n' then some gap
  else if c = '\r' then some gapCarriage
  else none

/-- The place behind the first hexadecimal digit; those of a text stay within ASCII. -/
def ofHexFirst? (k : Content) (c : Char) : Option Place :=
  match hexValue? c with
  | some n => if k = .text && 8 ≤ n then none else some (hexSecond n)
  | none => none

/-- The place behind the second hexadecimal digit. -/
def ofHexSecond? (k : Content) (first : Nat) (c : Char) : Option Place :=
  match hexValue? c with
  | some n => if k = .terminated && first + n = 0 then none else some plain
  | none => none

/-- The place behind a character of a code point, which has one digit at least and six at most. -/
def ofCode? (k : Content) (value digits : Nat) (c : Char) : Option Place :=
  match hexValue? c with
  | some n => if digits = 6 then none else some (code (16 * value + n) (digits + 1))
  | none =>
      if digits = 0 then none
      else if c = '_' then some (code value digits)
      else if c = '\x7d' && isCodePoint value && !(k = .terminated && value = 0) then some plain
      else none

/-- The place behind a character in white space after an escaped line break. -/
def ofGap? (k : Content) (c : Char) : Option Place :=
  if c = ' ' || c = '\t' || c = '\n' then some gap
  else if c = '\r' then some gapCarriage
  else ofPlain? k c

/-- The place behind the next character. -/
def next? (k : Content) (c : Char) : Place → Option Place
  | plain => ofPlain? k c
  | carriage => if c = '\n' then some plain else none
  | escape => ofEscape? k c
  | hexFirst => ofHexFirst? k c
  | hexSecond first => ofHexSecond? k first c
  | codeStart => if c = '\x7b' then some (code 0 0) else none
  | code value digits => ofCode? k value digits c
  | gap => ofGap? k c
  | gapCarriage => if c = '\n' then some gap else none

/-- Whether a quote at this place ends the text. -/
def canEnd : Place → Bool
  | plain => true
  | gap => true
  | _ => false

/-- Whether a place is in white space that only texts can have, not single characters. -/
def isGap : Place → Bool
  | gap => true
  | gapCarriage => true
  | _ => false

end Place

/-- What follows the closing quote of a text. -/
def restOfQuoted? (k : Content) : Place → List Char → Option (List Char)
  | _, [] => none
  | p, c :: cs =>
      if c = '"' && p.canEnd then some cs
      else (p.next? k c).bind (fun p => restOfQuoted? k p cs)

/-- What follows the closing quote of a text without escapes, which as many `#` follow as are in
`hashes`; `carriage` says that a line feed has to come next. -/
def restOfRaw? (k : Content) (hashes : List Char) : Bool → List Char → Option (List Char)
  | _, [] => none
  | true, c :: cs => if c = '\n' then restOfRaw? k hashes false cs else none
  | false, c :: cs =>
      if c = '"' && hashes.isPrefixOf cs then some (cs.drop hashes.length)
      else if c = '\r' then restOfRaw? k hashes true cs
      else if k.allows c then restOfRaw? k hashes false cs
      else none

/-- What follows a text without escapes; in front of its quote are at most 255 `#`. -/
def restOfHashed? (k : Content) (cs : List Char) : Option (List Char) :=
  let hashes := cs.takeWhile (· = '#')
  match cs.dropWhile (· = '#') with
  | '"' :: cs => if hashes.length ≤ 255 then restOfRaw? k hashes false cs else none
  | _ => none

/-! ## Single characters -/

/-- What follows a closing apostrophe. -/
def restOfApostrophe? : List Char → Option (List Char)
  | '\'' :: cs => some cs
  | _ => none

/-- What follows an escaped character and the closing apostrophe. -/
def restOfEscaped? (k : Content) : Place → List Char → Option (List Char)
  | _, [] => none
  | p, c :: cs =>
      match p.next? k c with
      | some .plain => restOfApostrophe? cs
      | some q => if q.isGap then none else restOfEscaped? k q cs
      | none => none

/-- What follows a single character and the closing apostrophe. -/
def restOfCharacter? (k : Content) : List Char → Option (List Char)
  | [] => none
  | c :: cs =>
      if c = '\\' then restOfEscaped? k .escape cs
      else if k.allows c then restOfApostrophe? cs
      else none

/-! ## Numbers -/

/-- Whether no identifier goes on with what follows. -/
def isBreak : List Char → Bool
  | c :: _ => !Text.continuesIdentifier c
  | [] => true

/-- What follows a number and its suffix. -/
def restOfNumber? (cs : List Char) : Option (List Char) :=
  let cs := restOfSuffix cs
  if isBreak cs then some cs else none

/-- What follows the exponent of a number; `bare` follows a number without one. -/
def restOfExponent? (bare : Option (List Char)) (sign digit : Bool) :
    List Char → Option (List Char)
  | [] => if digit then some [] else bare
  | c :: cs =>
      if c = '+' || c = '-' then
        if digit then some (c :: cs) else if sign then bare else restOfExponent? bare true digit cs
      else if c.isDigit then restOfExponent? bare sign true cs
      else if c = '_' then restOfExponent? bare sign digit cs
      else if digit then some (c :: cs)
      else bare

/-- What follows the digits of a number with a point or an exponent; `point` says that the point was
read. A point in front of another one, or of a name, does not belong to a number. -/
def restOfMantissa? (point : Bool) : List Char → Option (List Char)
  | [] => if point then some [] else none
  | c :: cs =>
      if c.isDigit || c = '_' then restOfMantissa? point cs
      else if c = '.' && !point then
        if cs.head?.any (fun d => d = '.' || Text.startsIdentifier d) then none
        else restOfMantissa? true cs
      else if c = 'e' || c = 'E' then
        restOfExponent? (if point then some (c :: cs) else none) false false cs
      else if point then some (c :: cs)
      else none

/-- What follows a number with a point or an exponent. -/
def restOfFloat? : List Char → Option (List Char)
  | c :: cs => if c.isDigit then (restOfMantissa? false cs).bind restOfNumber? else none
  | [] => none

/-- What follows the digits of a whole number; `empty` says that none was read. -/
def restOfDigits? (base : Nat) (empty : Bool) : List Char → Option (List Char)
  | [] => if empty then none else some []
  | c :: cs =>
      if c = '_' then if empty && base = 10 then none else restOfDigits? base empty cs
      else if (hexValue? c).any (· < base) then restOfDigits? base false cs
      else if c.isDigit || empty then none
      else some (c :: cs)

/-- What follows a whole number. -/
def restOfInteger? (cs : List Char) : Option (List Char) :=
  (match cs with
    | '0' :: 'x' :: cs => restOfDigits? 16 true cs
    | '0' :: 'o' :: cs => restOfDigits? 8 true cs
    | '0' :: 'b' :: cs => restOfDigits? 2 true cs
    | cs => restOfDigits? 10 true cs).bind restOfNumber?

/-! ## All literals -/

/-- What follows a text or a character, its suffix left out of account. -/
def restOfUnsuffixed? : List Char → Option (List Char)
  | '"' :: cs => restOfQuoted? .text .plain cs
  | 'r' :: cs => restOfHashed? .text cs
  | 'b' :: '"' :: cs => restOfQuoted? .bytes .plain cs
  | 'b' :: 'r' :: cs => restOfHashed? .bytes cs
  | 'c' :: '"' :: cs => restOfQuoted? .terminated .plain cs
  | 'c' :: 'r' :: cs => restOfHashed? .terminated cs
  | 'b' :: '\'' :: cs => restOfCharacter? .bytes cs
  | '\'' :: cs => restOfCharacter? .text cs
  | _ => none

/-- What follows a literal. -/
def rest? (cs : List Char) : Option (List Char) :=
  ((restOfUnsuffixed? cs).map restOfSuffix).or ((restOfFloat? cs).or (restOfInteger? cs))

end Literal

end RunLoop.Attribute
