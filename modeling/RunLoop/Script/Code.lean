import RunLoop.Machine.Run
import RunLoop.Script.Body
import RunLoop.Script.Reader

/-!
# The behaviour of scripts

* `pollAll`, `pollAny` poll the parts of an awaitable that waits for several.
* `step` is one step of running code, `unwind` the clean-up after a panic in it.
* `code` is the behaviour of scripts as guests.
* `runScript` runs a script to its end.
-/

namespace RunLoop.Script

/-! ## Awaitables that wait for several -/

/-- Ends a poll that came to `p`. -/
def endPoll (r : Registry) (p : Poll Routine) : Step guest :=
  ⟨r, [], .finish (.polled p)⟩

/-- Polls the parts from `rest` on that are not done; when all are done, their results are the
result. -/
def pollAll (r : Registry) (k : WakerId) (polled : List Part) : List Part → Step guest
  | .done result :: rest => pollAll r k (.done result :: polled) rest
  | .running f :: rest => ⟨r, [], .request (.poll f k) (.pollingAll k polled rest)⟩
  | [] =>
      let parts := polled.reverse
      if parts.all (fun p => p.future?.isNone) then
        endPoll r (.ready (.ok (.arr ((parts.filterMap Part.result?).map resultValue))) .spent)
      else endPoll r (.pending (.own (.all parts)))

/-- Polls the futures from `rest` on until one is ready. -/
def pollAny (r : Registry) (k : WakerId) (pending : List (Future Routine)) :
    List (Future Routine) → Step guest
  | f :: rest => ⟨r, [], .request (.poll f k) (.pollingAny k pending rest)⟩
  | [] => endPoll r (.pending (.own (.any pending.reverse)))

/-- The result of waiting for the first of several: its place and what it came to. -/
def anyResult (index : Nat) (result : Result) : Result :=
  .ok (.obj [("index", .ofNat index), ("result", resultValue result)])

/-! ## Routines -/

/-- Begins a poll of a routine. -/
def pollRoutine (w : World guest) (r : Registry) (k : WakerId) : Routine → Step guest
  | .offered p => ⟨r, [], .proceed (.poll p.accepted k)⟩
  | .program who rest pause guard => Body.resume w ⟨who, rest, .program k guard⟩ r k pause
  | .armed bomb inner => ⟨r, [], .request (.poll inner k) (.pollingArmed bomb)⟩
  | .cell c => ⟨r, [], .request (.pollCell c k) (.reading c)⟩
  | .join j => ⟨r, [], .request (.pollJoin j k) (.joining j)⟩
  | .ready result => endPoll r (.ready result .spent)
  | .yields 0 _ => endPoll r (.ready (.ok .null) .spent)
  | .yields 1 true => endPoll r (.ready (.ok .null) .spent)
  | .yields (n + 1) true => ⟨r, [], .request (.wake k) (.putOff n)⟩
  | .yields (n + 1) false => ⟨r, [], .request (.wake k) (.putOff (n + 1))⟩
  | .polls who name count done =>
      let note : Note := .entry who "polled" name (.ofNat (done + 1))
      if done < count then
        ⟨r, [note], .finish (.polled (.pending (.own (.polls who name count (done + 1)))))⟩
      else ⟨r, [note], .finish (.polled (.ready (.ok (.ofNat (done + 1))) .spent))⟩
  | .all parts => pollAll r k [] parts
  | .any futures => pollAny r k [] futures
  | .declined inner =>
      ⟨r, [], .proceed (.windUp [inner] none (.ready (.ok (.str "early"))))⟩

/-- Drops a routine: what it waits for first, then its guard. -/
def dropRoutine : Routine → Run
  | .offered (.mk _ _ guard _) => .windUp [] guard .done
  | .program _ _ pause guard => .windUp pause.futures guard .done
  | .armed bomb inner => .setOff bomb inner
  | .all parts => .windUp (parts.filterMap Part.future?) none .done
  | .any futures => .windUp futures none .done
  | .declined inner => .windUp [inner] none .done
  | _ => .windUp [] none .done

/-! ## Winding up -/

/-- Drops futures, then a guard. -/
def windUp (r : Registry) (guard : Option Guard) (ending : Ending) :
    List (Future Routine) → Step guest
  | f :: rest => ⟨r, [], .request (.drop f) (.windUp rest guard ending)⟩
  | [] =>
      match guard with
      | some (.mk who onDrop) =>
          ⟨r, [.entry who "drop" .null .null],
            .request (.run (.body ⟨who, onDrop, .plain⟩ .next)) (.windUp [] none ending)⟩
      | none => ⟨r, [], .finish ending.answer⟩

/-- Sets a bomb off: its panic begins before the future under it is dropped. -/
def setOff (panicking : Bool) (r : Registry) (bomb : String) (inner : Future Routine) :
    Step guest :=
  if panicking then ⟨r, [], .proceed (.windUp [inner] none .done)⟩
  else ⟨r, [], .raise (.text bomb) (.windUp [inner] none .done)⟩

/-! ## Threads and steps of a script -/

/-- Drops the loops that the running thread still named, in the order of their names. The names
are gone before the first loop is; loops that are named meanwhile are dropped after them, when
the thread does not write any more. -/
def dropLoops (r : Registry) (ending : Ending) : List LoopId → Step guest
  | l :: rest => ⟨r, [], .request (.close l) (.threadLoops rest ending)⟩
  | [] =>
      match r.namedLoops with
      | [] => ⟨r.leave, [.over], .finish ending.answer⟩
      | loops => ⟨r.leave, [.over], .proceed (.threadLoops loops ending)⟩

/-- Ends a thread: it gives up its names and drops its loops. -/
def leaveThread (r : Registry) (ending : Ending) : Step guest :=
  dropLoops r.leave ending r.namedLoops

/-- The name that a script is logged under. -/
def host : String :=
  "host"

/-- Goes on with the next step of a script; each step is a body of its own. -/
def nextStep (r : Registry) : List (String × Statement) → Step guest
  | [] => ⟨r.leave, [.over], .proceed (.threadLoops r.namedLoops .done)⟩
  | (op, s) :: rest =>
      ⟨r, [], .request (.guarded (.body ⟨host, [s], .plain⟩ .next)) (.scriptStep op rest)⟩

/-! ## All running code -/

/-- One step of code on the thread whose names `r` shows, given the answer to what the code asked
for last. -/
def stepHere (scene : Scene guest) (r : Registry) : Run → Answer guest → Step guest
  | .body b .next, _ => b.next scene.world r
  | .body b p, a => b.reply scene.world r p a
  | .handling h e, _ =>
      ⟨r, [.entry h.who "unhandled" .null (errorValue e)],
        .proceed (.body ⟨h.who, h.body, .plain⟩ .next)⟩
  | .poll routine k, _ => pollRoutine scene.world r k routine
  | .reading _, .cell (some o) => endPoll r (.ready o.toResult .spent)
  | .reading c, _ => endPoll r (.pending (.own (.cell c)))
  | .joining _, .joined (some o) => endPoll r (.ready (joinedResult o) .spent)
  | .joining j, _ => endPoll r (.pending (.own (.join j)))
  | .putOff n, _ => endPoll r (.pending (.own (.yields n true)))
  | .pollingAll k polled rest, .polled (.pending f) => pollAll r k (.running f :: polled) rest
  | .pollingAll k polled rest, .polled (.ready result f) =>
      ⟨r, [], .request (.drop f) (.droppingPart k polled result rest)⟩
  | .pollingAll k polled rest, _ => pollAll r k polled rest
  | .droppingPart k polled result rest, _ => pollAll r k (.done result :: polled) rest
  | .pollingAny k pending rest, .polled (.pending f) => pollAny r k (f :: pending) rest
  | .pollingAny _ pending rest, .polled (.ready result f) =>
      ⟨r, [], .proceed (.windUp (pending.reverse ++ f :: rest) none
        (.ready (anyResult pending.length result)))⟩
  | .pollingAny k pending rest, _ => pollAny r k pending rest
  | .pollingArmed bomb, .polled (.pending f) => endPoll r (.pending (.own (.armed bomb f)))
  | .pollingArmed bomb, .polled (.ready result f) =>
      endPoll r (.ready result (.own (.armed bomb f)))
  | .pollingArmed bomb, _ => endPoll r (.pending (.own (.armed bomb .spent)))
  | .setOff bomb inner, _ => setOff scene.panicking r bomb inner
  | .windUp futures guard ending, _ => windUp r guard ending futures
  | .closing l next, _ =>
      let r := r.release l
      if r.needs l then ⟨r, [], .proceed next⟩ else ⟨r, [], .request (.close l) next⟩
  | .thread who body, _ =>
      ⟨r, [], .request (.guarded (.body ⟨who, body, .plain⟩ .next)) .threadBody⟩
  | .threadBody, .stopped panic => leaveThread r (.stopped panic)
  | .threadBody, _ => leaveThread r (.stopped none)
  | .threadLoops loops ending, _ => dropLoops r ending loops
  | .script steps, _ => nextStep r steps
  | .scriptStep op rest, .stopped (some panic) =>
      ⟨r, [.entry host "panicked" (.str op) (panicValue panic)], .proceed (.script rest)⟩
  | .scriptStep _ rest, _ => nextStep r rest

/-- One step of running code: it sees the names of the thread that it runs on. -/
def step (scene : Scene guest) (r : Registry) (run : Run) (a : Answer guest) : Step guest :=
  stepHere scene (r.turnTo scene.world.thread.id) run a

/-- The clean-up after a panic in what running code asked for; `remains` is left of a future that it
had polled. Awaitables that wait for several keep their parts, and a bomb what is under it, to be
dropped by their owner. -/
def unwind (run : Run) (remains : Option (Future Routine)) : Run :=
  match run with
  | .body b p => b.unwind p remains
  | .pollingAll _ polled rest =>
      .windUp [] none
        (.remains (some (.all (polled.reverse ++ remains.toList.map .running ++ rest))))
  | .droppingPart _ polled _ rest =>
      .windUp [] none (.remains (some (.all (polled.reverse ++ rest))))
  | .pollingAny _ pending rest =>
      .windUp [] none (.remains (some (.any (pending.reverse ++ remains.toList ++ rest))))
  | .pollingArmed bomb => .windUp [] none (.remains (some (.armed bomb (remains.getD .spent))))
  | .windUp futures guard _ => .windUp futures guard (.remains none)
  | .closing _ next => next
  | .threadLoops loops _ => .threadLoops loops (.remains none)
  | _ => .windUp remains.toList none (.remains none)

/-- The behaviour of scripts. -/
def code : Guest.Code guest where
  accept := Routine.accepted
  poll := .poll
  drop := dropRoutine
  call c := .body ⟨c.who, c.body, .callback c.guard⟩ .next
  discard c := .windUp [] c.guard .done
  handle := .handling
  unwind := unwind
  copyPanic := copyPanic
  step := step

/-! ## Whole scripts -/

/-- The number of steps after which a script is given up. -/
def patience : Nat :=
  Nat.pow 10 12

/-- Runs a script in an empty world; what it leaves is cleaned up at the end. -/
def runScript (steps : List Value) : World guest :=
  ((Machine.start Registry.empty (Run.script (readSteps steps))).run code patience).world

end RunLoop.Script
