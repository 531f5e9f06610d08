import RunLoop.Attribute.Expand
import RunLoop.Log.Line
import RunLoop.Script.Code
import RunLoop.Script.Journal
import RunLoop.Slab.Trial

/-!
# Answering requests

A request is a record whose `op` says what is asked for: to run a script, to run it with events
written out as lines, to try a slab, or to expand an attribute.

* `answer` answers a request.
-/

namespace RunLoop.Service

open Script

/-- The answer to a request that makes no sense. -/
def badInput (why : String) : Value :=
  .obj [("error", .str "BadInput"), ("message", .str why)]

/-- Runs a script and shows its log, with events up to a level. -/
def scenario (v : Value) : Value :=
  let limit := (Level.ofName? (v.text "trace")).getD .off
  .obj [("log", logOf limit (runScript (v.list "steps")))]

/-- The events after the point from which they are written out. -/
def heard (started : Bool) : List (Line guest) → List Event
  | [] => []
  | ⟨_, .event e⟩ :: rest => if started then e :: heard started rest else heard started rest
  | ⟨_, .note .listen⟩ :: rest => heard true rest
  | _ :: rest => heard started rest

/-- Runs a script and shows its log and the lines written for its events. -/
def log (v : Value) : Value :=
  let w := runScript (v.list "steps")
  let filter := Log.Filter.read (v.field "filter").text?
  let started := (v.countAt? "init").getD 1 ≠ 0
  let lines := (heard started w.journal.toList).filter filter.allows
  .obj [("lines", .arr (lines.map (fun e => .str (Log.line e)))), ("log", logOf .off w)]

/-- Performs operations on a slab. -/
def slab (v : Value) : Value :=
  match (v.list "ops").mapM Slab.Op.read? with
  | some ops =>
      let answers := (Slab.new (v.count "size")).trial ops
      .obj [("log", .arr (answers.map (fun (a, size) => .arr [a.toValue, .ofNat size])))]
  | none => badInput "bad operation"

/-- Expands an attribute. -/
def expand (v : Value) : Value :=
  let tokens := fun ts => Value.obj [("tokens", .arr (Attribute.Token.values ts))]
  match Attribute.Token.readAll? (v.list "attr"), Attribute.Token.readAll? (v.list "item") with
  | some args, some item =>
      match v.text "macro" with
      | "main" => tokens (Attribute.expandMain args item)
      | "test" => tokens (Attribute.expandTest args item)
      | _ => badInput "unknown macro"
  | _, _ => badInput "bad token"

/-- The answer to a request. -/
def answer (v : Value) : Value :=
  match v.text "op" with
  | "scenario" => scenario v
  | "log" => log v
  | "slab" => slab v
  | "expand" => expand v
  | _ => badInput "unknown op"

end RunLoop.Service
