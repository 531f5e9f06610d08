import RunLoop.Attribute.Token
import RunLoop.Attribute.Token.Literal
import RunLoop.Text.Blank
import RunLoop.Text.Quoted

/-!
# Tokens of a text

A text is cut into pieces: tokens without tokens inside them, and delimiters. White space and
comments between them disappear; a comment that documents what follows becomes an attribute. Pieces
make tokens when the delimiters among them match.

* `Piece.next?` takes the first pieces off a text.
* `Piece.scan?` cuts a text into pieces, `Piece.nest?` makes tokens of them.
* `Token.lex?` is both.
-/

namespace RunLoop.Attribute

/-- A part of a text that is cut into tokens. -/
inductive Piece where
  | leaf (token : Token)
  | opening (delimiter : Delimiter)
  | closing (delimiter : Delimiter)

namespace Piece

/-! ## White space and comments -/

/-- Whether a character only separates tokens: white space, or a mark of the writing direction. -/
def isSeparator (c : Char) : Bool :=
  Text.isBlank c || c = '\u200e' || c = '\u200f'

/-- A line without its end, and what follows it from its line feed on. -/
def splitLine : List Char → List Char × List Char
  | [] => ([], [])
  | '\n' :: cs => ([], '\n' :: cs)
  | '\r' :: '\n' :: cs => ([], '\n' :: cs)
  | c :: cs => let (line, rest) := splitLine cs; (c :: line, rest)

/-- A comment up to its end, without the last two characters of it, and what follows the comment;
`depth` comments are open. -/
def splitComment? : Nat → List Char → Option (List Char × List Char)
  | depth, '/' :: '*' :: cs =>
      (splitComment? (depth + 1) cs).map (fun (text, rest) => ('/' :: '*' :: text, rest))
  | depth, '*' :: '/' :: cs =>
      if depth ≤ 1 then some ([], cs)
      else (splitComment? (depth - 1) cs).map (fun (text, rest) => ('*' :: '/' :: text, rest))
  | depth, c :: cs => (splitComment? depth cs).map (fun (text, rest) => (c :: text, rest))
  | _, [] => none

/-- Whether every carriage return has a line feed behind it. -/
def endsLinesProperly : List Char → Bool
  | '\r' :: '\n' :: cs => endsLinesProperly cs
  | '\r' :: _ => false
  | _ :: cs => endsLinesProperly cs
  | [] => true

/-- The characters of a literal for a text. A NUL in front of an octal digit is written with two
digits of its own. -/
def literalChars : List Char → List Char
  | [] => []
  | '\x00' :: c :: cs =>
      (if '0' ≤ c && c ≤ '7' then ['\\', 'x', '0', '0'] else ['\\', '0']) ++ literalChars (c :: cs)
  | c :: cs => Text.Quoted.escape c ++ literalChars cs

/-- The attribute that stands for a documenting comment, which may speak of what encloses it. -/
def documentation (inner : Bool) (text : List Char) : Option (List Piece) :=
  if endsLinesProperly text then
    some ([leaf (.punct '#' false)] ++ (if inner then [leaf (.punct '!' false)] else []) ++
      [opening .bracket, leaf (.ident "doc"), leaf (.punct '=' false),
        leaf (.literal (String.ofList ('"' :: literalChars text ++ ['"']))), closing .bracket])
  else none

/-- The pieces of a comment up to the end of its line, and what follows it; `cs` are the characters
behind the two slashes. -/
def lineComment? (cs : List Char) : Option (List Piece × List Char) :=
  let (line, rest) := splitLine cs
  match line with
  | '!' :: text => (documentation true text).map (·, rest)
  | '/' :: '/' :: _ => some ([], rest)
  | '/' :: text => (documentation false text).map (·, rest)
  | _ => some ([], rest)

/-- The pieces of a comment up to its closing mark, and what follows it; `cs` are the characters
behind the opening mark. -/
def blockComment? (cs : List Char) : Option (List Piece × List Char) :=
  match cs, splitComment? 1 cs with
  | _, none => none
  | '!' :: _, some (text, rest) => (documentation true (text.drop 1)).map (·, rest)
  | '*' :: '/' :: _, some (_, rest) => some ([], rest)
  | '*' :: '*' :: _, some (_, rest) => some ([], rest)
  | '*' :: _, some (text, rest) => (documentation false (text.drop 1)).map (·, rest)
  | _, some (_, rest) => some ([], rest)

/-! ## Tokens without tokens inside them -/

/-- Whether a text begins with a punctuation character, and not with a comment. -/
def beginsWithPunct : List Char → Bool
  | '/' :: '/' :: _ => false
  | '/' :: '*' :: _ => false
  | c :: _ => "~!@#$%^&*-=+|;:,<.>/?'".toList.contains c
  | [] => false

/-- What follows an identifier, raw or not. -/
def restOfAnyIdentifier? : List Char → Option (List Char)
  | 'r' :: '#' :: cs =>
      match restOfIdentifier? cs with
      | some rest =>
          let name := String.ofList (cs.take (cs.length - rest.length))
          if ["_", "super", "self", "Self", "crate"].contains name then none else some rest
      | none => none
  | cs => restOfIdentifier? cs

/-- Whether an apostrophe in front of this text begins the name of a lifetime. -/
def beginsLifetime (cs : List Char) : Bool :=
  match restOfAnyIdentifier? cs with
  | some ('\'' :: _) => false
  | some ('#' :: _) => ['r', '#'].isPrefixOf cs
  | some _ => true
  | none => false

/-- A punctuation character, and what follows it. -/
def punct? : List Char → Option (Token × List Char)
  | '\'' :: cs => if beginsLifetime cs then some (.punct '\'' true, cs) else none
  | c :: cs => if beginsWithPunct (c :: cs) then some (.punct c (beginsWithPunct cs), cs) else none
  | [] => none

/-- How literals begin whose first letters look like an identifier. -/
def literalStarts : List String :=
  ["r\"", "r#\"", "r##", "b\"", "b'", "br\"", "br#", "c\"", "cr\"", "cr#"]

/-- What follows an identifier, where no literal begins. -/
def restOfName? (cs : List Char) : Option (List Char) :=
  if literalStarts.any (fun start => start.toList.isPrefixOf cs) then none
  else restOfAnyIdentifier? cs

/-- The text in front of `rest`. -/
def before (cs rest : List Char) : String :=
  String.ofList (cs.take (cs.length - rest.length))

/-- A token without tokens inside it, and what follows it. -/
def leaf? (cs : List Char) : Option (Token × List Char) :=
  match Literal.rest? cs with
  | some rest => some (.literal (before cs rest), rest)
  | none =>
      match punct? cs with
      | some (t, rest) => some (t, rest)
      | none => (restOfName? cs).map (fun rest => (.ident (before cs rest), rest))

/-! ## Whole texts -/

/-- The mark of an expansion that failed, which counts as one literal. -/
def errorMark : String :=
  "(/*ERROR*/)"

/-- The pieces at the beginning of a text, which may be none, and what follows them. -/
def next? : List Char → Option (List Piece × List Char)
  | '/' :: '/' :: cs => lineComment? cs
  | '/' :: '*' :: cs => blockComment? cs
  | '(' :: cs =>
      if errorMark.toList.isPrefixOf ('(' :: cs) then
        some ([leaf (.literal errorMark)], cs.drop (errorMark.length - 1))
      else some ([opening .parenthesis], cs)
  | ')' :: cs => some ([closing .parenthesis], cs)
  | '[' :: cs => some ([opening .bracket], cs)
  | ']' :: cs => some ([closing .bracket], cs)
  | '\x7b' :: cs => some ([opening .brace], cs)
  | '\x7d' :: cs => some ([closing .brace], cs)
  | c :: cs =>
      if isSeparator c then some ([], cs)
      else (leaf? (c :: cs)).map (fun (t, rest) => ([leaf t], rest))
  | [] => some ([], [])

/-- The pieces of a text, which are found in `n` steps at most. -/
def scanWithin? : Nat → List Char → Option (List Piece)
  | _, [] => some []
  | 0, _ => none
  | n + 1, cs =>
      match next? cs with
      | some (pieces, rest) => (scanWithin? n rest).map (pieces ++ ·)
      | none => none

/-- The pieces of a text; every step takes a character at least. -/
def scan? (cs : List Char) : Option (List Piece) :=
  scanWithin? cs.length cs

/-- The tokens that pieces make. `tokens` were made in the open group, in reverse; `outer` are the
groups around it, each with its delimiter and the tokens in front of it. -/
def nestIn? (outer : List (Delimiter × List Token)) (tokens : List Token) :
    List Piece → Option (List Token)
  | [] => if outer.isEmpty then some tokens.reverse else none
  | leaf t :: rest => nestIn? outer (t :: tokens) rest
  | opening d :: rest => nestIn? ((d, tokens) :: outer) [] rest
  | closing d :: rest =>
      match outer with
      | (d', before) :: outer =>
          if d = d' then nestIn? outer (.group d tokens.reverse :: before) rest else none
      | [] => none

/-- The tokens that pieces make, if their delimiters match. -/
def nest? (pieces : List Piece) : Option (List Token) :=
  nestIn? [] [] pieces

end Piece

/-- The tokens of a text. -/
def Token.lex? (t : String) : Option (List Token) :=
  (Piece.scan? t.toList).bind Piece.nest?

end RunLoop.Attribute
