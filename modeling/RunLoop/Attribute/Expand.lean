import RunLoop.Attribute.Token.Lexer
import RunLoop.Attribute.Token.Printer

/-!
# Entry attributes

An attribute on a function makes it run its body on a loop of its own. The attribute `main` can name
the loop, the attribute `test` also marks the function as a test. Both take the keyword `async` away
and write the body into the text of a wrapper that builds a loop and blocks on the body; the tokens
of that text are the new body.

* `Obstacle` says why an attribute cannot be expanded.
* `loopName` reads the arguments of `main`.
* `mainText`, `testText` are the wrappers.
* `expandMain`, `expandTest` are the two attributes.
-/

namespace RunLoop.Attribute

open Token

/-- An invocation that makes compilation fail with a message. -/
def compileError (message : String) : List Token :=
  [ident "compile_error", punct '!' false,
    group .parenthesis [literal (Text.Quoted.quote message)], punct ';' false]

/-- Why an attribute cannot be expanded. -/
inductive Obstacle where
  | arguments
  /-- The name is a literal that is no string. -/
  | name (found : String)
  | body
  /-- The body is no list of tokens once it is written into a wrapper: comments or texts can begin
  or end there that nobody wrote. -/
  | text
  deriving DecidableEq

/-- What an attribute, `main` or `test`, says of an obstacle. -/
def Obstacle.message (kind : String) : Obstacle → String
  | arguments => "#[taskbridge::" ++ kind ++ "] only accepts `name = \"...\"`"
  | name found => "#[taskbridge::" ++ kind ++ "] expects a string name, found `" ++ found ++ "`"
  | body => "#[taskbridge::" ++ kind ++ "] expects a function body"
  | text => "taskbridge macro error: cannot parse string into token stream"

/-! ## The arguments -/

/-- Whether a literal, as it is written, is a string: plain or raw, not of bytes. -/
def isStringLiteral (text : String) : Bool :=
  [['"'], ['r', '"'], ['r', '#']].any (fun start => start.isPrefixOf text.toList)

/-- The literal that names the loop, if the arguments have one. -/
def loopName : List Token → Except Obstacle (Option String)
  | [] => .ok none
  | [ident key, punct eq _, literal text] =>
      if key = "name" ∧ eq = '=' then
        if isStringLiteral text then .ok (some text) else .error (.name text)
      else .error .arguments
  | _ => .error .arguments

/-! ## The function -/

/-- The function without the first `async` of its own. -/
def removeAsync (item : List Token) : List Token :=
  item.eraseP (isIdent "async")

/-- The function around its body, which is its last group between braces. -/
def splitBody? : List Token → Option (List Token × List Token × List Token)
  | [] => none
  | t :: ts =>
      match splitBody? ts, t with
      | some (before, body, after), _ => some (t :: before, body, after)
      | none, group .brace body => some ([], body, ts)
      | none, _ => none

/-- The function with the tokens of a wrapper as its body; `wrapper` makes the text of the wrapper
from that of the body. -/
def wrap (wrapper : String → String) (item : List Token) : Except Obstacle (List Token) :=
  match splitBody? (removeAsync item) with
  | none => .error .body
  | some (before, body, after) =>
      match lex? (wrapper (print body)) with
      | none => .error .text
      | some ts => .ok (before ++ [group .brace ts] ++ after)

/-! ## The attributes -/

/-- The text that makes a loop, named by a literal if there is one. -/
def builderText (name : Option String) : String :=
  "::taskbridge::EventLoopBuilder::new()" ++ (name.map (fun t => ".name(" ++ t ++ ")")).getD "" ++
    ".build()"

/-- The text that blocks on a body under `main`; the body has lines of its own. -/
def mainText (name : Option String) (body : String) : String :=
  "\n".intercalate [
    "\x7b",
    "            let event_loop = " ++ builderText name ++ ";",
    "            let output = event_loop",
    "                .block_on(async move \x7b",
    "                    " ++ body,
    "                \x7d)",
    "                .expect(\"#[taskbridge::main] must not run inside another event loop\");",
    "            output",
    "        \x7d"]

/-- The text that blocks on a body under `test`; the body shares its last line with what follows. -/
def testText (body : String) : String :=
  "\n".intercalate [
    "\x7b",
    "        let event_loop = " ++ builderText (some "\"test\"") ++ ";",
    "        let output = event_loop",
    "            .block_on(async move \x7b " ++ body ++ " \x7d)",
    "            .expect(\"#[taskbridge::test] must not run inside another event loop\");",
    "        output",
    "    \x7d"]

/-- The attribute that runs a function on a loop. What is wrong with the arguments counts before
what is wrong with the function. -/
def expandMain (args item : List Token) : List Token :=
  match (loopName args).bind (fun name => wrap (mainText name) item) with
  | .error o => compileError (o.message "main")
  | .ok ts => ts

/-- The mark of a test. -/
def testMark : List Token :=
  [punct '#' false, group .bracket [ident "test"]]

/-- The attribute that runs a test on a loop; its arguments do not matter. Something without a body
is not marked as a test. -/
def expandTest (_args item : List Token) : List Token :=
  match wrap testText item with
  | .error .body => compileError (Obstacle.body.message "test")
  | .error o => testMark ++ compileError (o.message "test")
  | .ok ts => testMark ++ ts

end RunLoop.Attribute
