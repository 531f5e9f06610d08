import RunLoop.Debug
import RunLoop.Script.Statement

/-!
# Outcomes as data

What a statement came to is written down as plain data: results and errors as records, descriptions
of errors with all that can be asked of them.

* `resultValue`, `unitValue` write results.
* `refusal` is what is written when a statement cannot be carried out.
* `describe` writes an error down in full.
-/

namespace RunLoop.Script

/-- An error: its kind and its text. -/
def errorValue (e : Error) : Value :=
  .obj [("error", .str e.kind), ("message", .str e.message)]

/-- Success with a value. -/
def okValue (v : Value) : Value :=
  .obj [("ok", v)]

/-- Failure by an error. -/
def failure (e : Error) : Value :=
  .obj [("err", errorValue e)]

/-- A result. -/
def resultValue : Result → Value
  | .ok v => okValue v
  | .error e => failure e

/-- A result without a value. -/
def unitValue : Except Error Unit → Value
  | .ok () => okValue .null
  | .error e => failure e

/-- A statement that cannot be carried out. -/
def refusal (why : String) : Value :=
  .obj [("err", .obj [("error", .str "Driver"), ("message", .str why)])]

/-- The payload of a panic. -/
def panicValue (p : Payload) : Value :=
  .arr [.ofText? p.text?]

/-- How a block of code ended: null, or by a panic. -/
def stopValue : Option Payload → Value
  | none => .null
  | some p => panicValue p

/-- The result of a join slot as a result: what the future came to becomes a value. -/
def joinedResult : Joined → Result
  | .ok r => .ok (resultValue r)
  | .error e => .error e

/-- The sort of error that is bound in a fault. -/
def boundSort : Bound → String
  | .foreign _ _ => "custom"
  | .caused _ _ _ => "custom"
  | .stream _ => "io"
  | .error _ => "error"
  | .fault _ => "fault"
  | .text _ => "other"

/-- A fault in full; `fresh` is the identity that a new fault would get. -/
def faultValue (fresh : Nat) (f : Fault) : Value :=
  .obj [("bound", .str (boundSort f.bound)), ("message", .str f.message), ("debug", .str f.debug),
    ("inner", .str f.bound.message), ("clone_shares", .bool (f.same f)),
    ("fresh_shares", .bool (f.same (.mk fresh f.bound)))]

/-- An error in full. -/
def describe (fresh : Nat) (e : Error) : Value :=
  .obj [("kind", .str e.kind), ("message", .str e.message), ("debug", .str e.debug),
    ("cancelled", .bool e.isCancelled), ("faulted", .bool e.isFaulted), ("usage", .bool e.isUsage),
    ("fault", (e.fault?.map (faultValue fresh)).getD .null), ("sources", .arr (e.sources.map .str))]

/-- Whether two results carry copies of one fault; null unless both carry a fault. -/
def sameFaultValue (a b : Result) : Value :=
  match a, b with
  | .error (.faulted f), .error (.faulted g) => .bool (f.same g)
  | _, _ => .null

/-- The panic of copying a value: a record may say under `bomb` that it cannot be copied. -/
def copyPanic (v : Value) : Option Payload :=
  ((v.field? "bomb").bind Value.text?).map .text

end RunLoop.Script
