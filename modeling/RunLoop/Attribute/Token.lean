import RunLoop.Value

/-!
# Tokens

Source text comes as a list of tokens: identifiers, single punctuation characters, literals as they
were written, and groups between delimiters. Invisible delimiters keep tokens together that no
character encloses.

* `Token` is a token, `Token.value` and `Token.readAll?` are its form as plain data.
* `Token.spread` is a token without invisible delimiters.
-/

namespace RunLoop.Attribute

/-- What encloses a group. -/
inductive Delimiter where
  | brace
  | parenthesis
  | bracket
  | invisible
  deriving DecidableEq

/-- A token. -/
inductive Token where
  | ident (name : String)
  /-- A punctuation character; `joint` says that the next token follows without a blank. -/
  | punct (char : Char) (joint : Bool)
  | literal (text : String)
  | group (delimiter : Delimiter) (tokens : List Token)

namespace Delimiter

/-- The two characters of a delimiter. -/
def text : Delimiter → String
  | brace => "\x7b\x7d"
  | parenthesis => "()"
  | bracket => "[]"
  | invisible => ""

/-- The delimiter of two characters. -/
def ofText? (t : String) : Option Delimiter :=
  [brace, parenthesis, bracket, invisible].find? (fun d => d.text = t)

end Delimiter

namespace Token

mutual

/-- The tokens that a token stands for when its invisible delimiters are taken away. -/
def spread : Token → List Token
  | group .invisible ts => spreadAll ts
  | group d ts => [group d (spreadAll ts)]
  | t => [t]

/-- Tokens without invisible delimiters, their contents in place. -/
def spreadAll : List Token → List Token
  | [] => []
  | t :: ts => t.spread ++ spreadAll ts

end

/-- Whether a token is the identifier `name`. -/
def isIdent (name : String) : Token → Bool
  | ident n => n = name
  | _ => false

/-! ## Plain data -/

mutual

/-- A token as a record. -/
def value : Token → Value
  | ident name => .obj [("i", .str name)]
  | punct c _ => .obj [("p", .str (String.singleton c))]
  | literal t => .obj [("l", .str t)]
  | group d ts => .obj [("g", .str d.text), ("t", .arr (values ts))]

/-- Tokens as records. -/
def values : List Token → List Value
  | [] => []
  | t :: ts => t.value :: values ts

end

/-- The tokens of a literal: a number below zero is a minus sign and a number. -/
def ofLiteral (text : String) : List Token :=
  match text.toList with
  | '-' :: digits => [punct '-' false, literal (String.ofList digits)]
  | _ => [literal text]

/-- The tokens of a record without tokens inside it. -/
def readLeaf? (v : Value) : Option (List Token) :=
  match v.field? "i", v.field? "p", v.field? "l" with
  | some (.str name), _, _ => some [ident name]
  | _, some (.str p), _ =>
      match p.toList with
      | [c] => some [punct c (v.flag "j")]
      | _ => none
  | _, _, some (.str t) => some (ofLiteral t)
  | _, _, _ => none

mutual

/-- The tokens of a record, at most `n` groups deep. -/
def read? : Nat → Value → Option (List Token)
  | 0, _ => none
  | n + 1, v =>
      match v.field? "g" with
      | some (.str d) =>
          match Delimiter.ofText? d, readList? n (v.list "t") with
          | some d, some ts => some [group d ts]
          | _, _ => none
      | _ => readLeaf? v

/-- The tokens of records, each at most `n` groups deep. -/
def readList? : Nat → List Value → Option (List Token)
  | n, vs => (vs.mapM (read? n)).map List.flatten

end

/-- The tokens of records. -/
def readAll? (vs : List Value) : Option (List Token) :=
  readList? (Value.depthList vs + 1) vs

end Token

end RunLoop.Attribute
