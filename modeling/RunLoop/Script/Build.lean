import RunLoop.Script.Outcome
import RunLoop.Script.Routine

/-!
# Building futures

An awaitable is built completely before it is used: every name in it has to be known, and every
error in it gets faults of its own.

* `Program.offer` is a program as it is offered to a loop, `Program.accepted` one that a loop
  accepted.
* `Awaitable.build` builds an awaitable, or says what is unknown and what is to be dropped.
-/

namespace RunLoop.Script

/-- A program that was accepted: from now on its bomb goes off when it is dropped. -/
def Program.accepted : Program → Routine
  | .mk who body guard none => .program who body .start guard
  | .mk who body guard (some bomb) => .armed bomb (.own (.program who body .start guard))

/-- A program that is offered to a loop. -/
def Program.offer (p : Program) : Future Routine :=
  .own (.offered p)

/-- A routine that was accepted. -/
def Routine.accepted : Routine → Routine
  | .offered p => p.accepted
  | routine => routine

/-- The name of a program. -/
def Program.name : Program → String
  | .mk who _ _ _ => who

/-- What a name refers to, or the reason why it refers to nothing. -/
def known {α : Type} (kind : String) (found : Option α) : Except String α :=
  match found with
  | some a => .ok a
  | none => .error ("unknown " ++ kind)

/-- The cell of a source that is known by name. -/
def cellOf (w : World guest) (r : Registry) (id : String) : Except String CellId :=
  known "source" (((r.sources.find? id).bind w.source?).map (·.cell))

/-- Why an awaitable could not be built, and the futures of its parts that were built already, in
the order in which they are dropped. -/
structure Unbuilt where
  why : String
  parts : List (Future Routine)

/-- The reason given for an awaitable that makes no sense, and for any other one by statements that
do not tell more. -/
def badAwaitable : String :=
  "bad awaitable"

/-- The routine that reads a known object, as a future. -/
def reader {α : Type} (found : Except String α) (read : α → Routine) :
    Except Unbuilt (Future Routine) :=
  match found with
  | .ok a => .ok (.own (read a))
  | .error why => .error ⟨why, []⟩

mutual

/-- The future of an awaitable built by `who`, its faults numbered from `first` on. -/
def Awaitable.build (w : World guest) (r : Registry) (who : String) (first : Nat) :
    Awaitable → Except Unbuilt (Future Routine)
  | .task id => reader (known "task" (r.tasks.find? id)) .cell
  | .observe id => reader (cellOf w r id) .cell
  | .join id => reader (known "join" (r.here.joins.find? id)) .join
  | .ready (.ok v) => .ok (.own (.ready (.ok v)))
  | .ready (.error e) => .ok (.own (.ready (.error (e.renew first))))
  | .nested a => (a.build w r who first).map .nested
  | .program p => .ok (.own p.accepted)
  | .yields n => .ok (.own (.yields n false))
  | .polls n name => .ok (.own (.polls who name n 0))
  | .all parts =>
      (Awaitable.buildAll w r who first [] parts).map (fun fs => .own (.all (fs.map .running)))
  | .any parts => (Awaitable.buildAll w r who first [] parts).map (fun fs => .own (.any fs))
  | .malformed => .error ⟨badAwaitable, []⟩

/-- The futures in `built` and those of further awaitables. If one of these cannot be built, its own
parts are dropped before the futures in front of it. -/
def Awaitable.buildAll (w : World guest) (r : Registry) (who : String) (first : Nat)
    (built : List (Future Routine)) :
    List Awaitable → Except Unbuilt (List (Future Routine))
  | [] => .ok built
  | a :: rest =>
      match a.build w r who first with
      | .error u => .error ⟨u.why, u.parts ++ built⟩
      | .ok f => Awaitable.buildAll w r who (first + a.faults) (built ++ [f]) rest

end

/-- The futures that are left of an awaitable that is not used. -/
def leftOver : Except Unbuilt (Future Routine) → List (Future Routine)
  | .ok f => [f]
  | .error u => u.parts

/-- The futures that a waiting program holds, in the order in which they are dropped. -/
def Pause.futures : Pause → List (Future Routine)
  | .awaiting _ _ f => [f]
  | .first a b => [a, b]
  | .second _ b => [b]
  | _ => []

/-- The future of a part that is not done. -/
def Part.future? : Part → Option (Future Routine)
  | .running f => some f
  | .done _ => none

/-- The result of a part that is done. -/
def Part.result? : Part → Option Result
  | .running _ => none
  | .done r => some r

end RunLoop.Script
