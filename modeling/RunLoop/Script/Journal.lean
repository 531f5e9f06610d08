import RunLoop.Script.Outcome
import RunLoop.Script.Routine

/-!
# Journals as data

The journal of a run is shown per thread: what a thread wrote until it was over is shown where
somebody waited for its end.

* `eventValue`, `entryValue` show one item.
* `writtenBy` selects what one thread wrote.
* `journalOf` shows what a thread wrote, with events up to a level; `logOf` shows a whole script.
-/

namespace RunLoop.Script

/-- An event: its level, its text and its fields. -/
def eventValue (e : Event) : Value :=
  .arr [.str "trace", .str e.level.name, .str e.message,
    .arr (e.fields.map (fun f => .arr [.str f.name, .str f.text]))]

/-- A line of the log. -/
def entryValue (who op : String) (subject result : Value) : Value :=
  .arr [.str who, .str op, subject, result]

/-- What a thread wrote until it was over. -/
def writtenBy (t : ThreadId) (lines : List (Line guest)) : List (Item guest) :=
  ((lines.filter (fun l => l.thread = t)).map (·.item)).takeWhile (fun
    | .note .over => false
    | _ => true)

/-- What a thread wrote, with the events that `limit` allows. Threads wait for younger ones only, so
that no more rounds are needed than there are threads. -/
def journalOf (limit : Level) (lines : List (Line guest)) : Nat → ThreadId → List Value
  | 0, _ => []
  | rounds + 1, t =>
      (writtenBy t lines).filterMap (fun
        | .event e => if limit.allows e.level then some (eventValue e) else none
        | .note (.entry who op subject result) => some (entryValue who op subject result)
        | .note (.thread who op subject child panic) =>
            some (entryValue who op subject (.obj [
              ("log", .arr (journalOf limit lines rounds child)), ("panic", stopValue panic)]))
        | .note .listen => none
        | .note .over => none)

/-- The number of threads that wrote something. -/
def threadCount (lines : List (Line guest)) : Nat :=
  lines.foldl (fun n l => max n (l.thread.index + 1)) 0

/-- The log of a script: what its first thread wrote until the script was over. -/
def logOf (limit : Level) (w : World guest) : Value :=
  let lines := w.journal.toList
  .arr (journalOf limit lines (threadCount lines + 1) ⟨0⟩)

end RunLoop.Script
