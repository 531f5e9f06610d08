import RunLoop.Attribute.Token

/-!
# Tokens as text

Tokens are written one after the other with a blank between them, except behind a joint punctuation
character. Braces keep a distance from what they enclose; invisible delimiters are not written.

* `Token.print` writes tokens.
-/

namespace RunLoop.Attribute

namespace Delimiter

/-- What is written in front of a group. -/
def opening : Delimiter → List Char
  | brace => ['\x7b', ' ']
  | parenthesis => ['(']
  | bracket => ['[']
  | invisible => []

/-- What is written behind a group, which may be empty. -/
def closing (empty : Bool) : Delimiter → List Char
  | brace => if empty then ['\x7d'] else [' ', '\x7d']
  | parenthesis => [')']
  | bracket => [']']
  | invisible => []

end Delimiter

namespace Token

/-- Whether the next token is written without a blank. -/
def isJoint : Token → Bool
  | punct _ joint => joint
  | _ => false

mutual

/-- The text of a token. -/
def chars : Token → List Char
  | ident name => name.toList
  | punct c _ => [c]
  | literal text => text.toList
  | group d ts => d.opening ++ charsOfAll ts ++ d.closing ts.isEmpty

/-- The text of tokens. -/
def charsOfAll : List Token → List Char
  | [] => []
  | [t] => t.chars
  | t :: ts => t.chars ++ (if t.isJoint then [] else [' ']) ++ charsOfAll ts

end

/-- The text of tokens. -/
def print (ts : List Token) : String :=
  String.ofList (charsOfAll ts)

end Token

end RunLoop.Attribute
