import RunLoop.Script.Build

/-!
# Bodies of statements

A body is carried out one statement at a time. Most statements ask the machine for something and log
the answer; those that wait may suspend the program that the body belongs to.

* `Body.next` goes on with the next statement.
* `Body.carryOut` starts a statement.
* `Body.reply` takes the answer that a statement waited for.
-/

namespace RunLoop.Script.Body

/-! ## Steps -/

/-- A line about a statement of the body. -/
def entry (b : Body) (h : Heading) (v : Value) : Note :=
  .entry b.who h.op h.subject v

/-- Asks for something; `p` says what to do with the answer. -/
def ask (b : Body) (r : Registry) (q : Request guest) (p : Point) : Step guest :=
  ⟨r, [], .request q (.body b p)⟩

/-- Logs what a statement came to and goes on. -/
def log (b : Body) (r : Registry) (h : Heading) (v : Value) : Step guest :=
  ⟨r, [b.entry h v], .proceed (.body b .next)⟩

/-- Logs that a statement cannot be carried out. -/
def refuse (b : Body) (r : Registry) (h : Heading) (why : String) : Step guest :=
  b.log r h (refusal why)

/-- Logs an answer or the reason why there is none. -/
def logKnown {α : Type} (b : Body) (r : Registry) (h : Heading) (a : Except String α)
    (v : α → Value) : Step guest :=
  match a with
  | .ok a => b.log r h (v a)
  | .error why => b.refuse r h why

/-- Asks for something that needs an object known by name. -/
def askKnown {α : Type} (b : Body) (r : Registry) (h : Heading) (a : Except String α)
    (q : α → Request guest) (p : Point) : Step guest :=
  match a with
  | .ok a => b.ask r (q a) p
  | .error why => b.refuse r h why

/-- Drops futures and logs that a statement cannot be carried out. -/
def dropAndRefuse (b : Body) (r : Registry) (h : Heading) (futures : List (Future Routine))
    (why : String) : Step guest :=
  b.ask r (.run (.windUp futures none .done)) (.note h (refusal why))

/-- Asks for something that needs a future; `built` is the future or what is left of it. -/
def askBuilt (b : Body) (r : Registry) (h : Heading) (built : Except Unbuilt (Future Routine))
    (q : Future Routine → Request guest) (p : Point) : Step guest :=
  match built with
  | .ok f => b.ask r (q f) p
  | .error u => b.dropAndRefuse r h u.parts u.why

/-- Ends the body, with a result if it belongs to a program. -/
def finish (b : Body) (r : Registry) (notes : List Note) (result : Result) : Step guest :=
  match b.owner with
  | .plain => ⟨r, notes, .finish .nothing⟩
  | .callback guard => ⟨r, notes, .proceed (.windUp [] guard .done)⟩
  | .program _ guard => ⟨r, notes, .proceed (.windUp [] guard (.ready result))⟩

/-- Suspends the program that the body belongs to. -/
def suspend (b : Body) (r : Registry) (pause : Pause) : Step guest :=
  match b.owner with
  | .program _ guard =>
      ⟨r, [], .finish (.polled (.pending (.own (.program b.who b.rest pause guard))))⟩
  | _ => ⟨r, [], .finish .nothing⟩

/-- The waker of the poll that the body runs in. -/
def waker? (b : Body) : Option WakerId :=
  match b.owner with
  | .program k _ => some k
  | _ => none

/-- The guard of the owner of the body. -/
def guard? (b : Body) : Option Guard :=
  match b.owner with
  | .plain => none
  | .callback guard => guard
  | .program _ guard => guard

/-! ## Waiting -/

/-- Asks for a turn `n` times, and logs it after the last. -/
def yield (b : Body) (r : Registry) (h : Heading) (k : WakerId) : Nat → Step guest
  | 0 => b.log r h .null
  | n + 1 => b.ask r (.wake k) (.yielded h n)

/-- The heading of a comparison of faults. -/
def comparison : Heading :=
  ⟨"same_fault", .null⟩

/-- Refuses a comparison whose first awaitable could not be built; the second is built and
dropped. -/
def refuseComparison (w : World guest) (b : Body) (r : Registry) (first : Nat) (y : Awaitable) :
    Step guest :=
  b.dropAndRefuse r comparison (leftOver (y.build w r b.who first)) badAwaitable

/-- Builds two awaitables and waits for the first of them. What is left of one that cannot be built
is dropped at once, and a whole one after that. -/
def startComparison (w : World guest) (b : Body) (r : Registry) (first : Nat) (k : WakerId)
    (x y : Awaitable) : Step guest :=
  match x.build w r b.who first with
  | .error u => b.ask r (.run (.windUp u.parts none .done)) (.comparand (first + x.faults) y)
  | .ok f =>
      match y.build w r b.who (first + x.faults) with
      | .ok g => b.ask r (.poll f k) (.comparing g)
      | .error u => b.dropAndRefuse r comparison (u.parts ++ [f]) badAwaitable

/-- Carries out a statement that only programs can. What is refused is logged without a subject. -/
def carryOutWaiting (w : World guest) (b : Body) (r : Registry) (h : Heading) (first : Nat)
    (k : WakerId) : Action → Step guest
  | .yield n => b.yield r ⟨h.op, .null⟩ k n
  | .await use tag a =>
      b.askBuilt r ⟨h.op, .null⟩ (a.build w r b.who first) (.poll · k) (.polled ⟨h.op, tag⟩ use)
  | .poll tag a =>
      b.askBuilt r ⟨h.op, .null⟩ (a.build w r b.who first) (.poll · k) (.sampled ⟨h.op, tag⟩)
  | .sameFault x y => b.startComparison w r first k x y
  | .saveWaker id => b.log (r.nameWaker id k) h .null
  | _ => b.refuse r h "bad statement"

/-- Takes the answer to a poll of an awaited future. -/
def replyPolled (b : Body) (r : Registry) (h : Heading) (use : Use) :
    Poll Routine → Step guest
  | .pending f => b.suspend r (.awaiting h use f)
  | .ready result f => b.ask r (.drop f) (.settled h use result)

/-- Logs the result of an awaited future and goes on, or ends the body with it. -/
def useResult (fresh : Nat) (b : Body) (r : Registry) (h : Heading) (use : Use)
    (result : Result) : Step guest :=
  match use, result with
  | .inspect, .error e => b.log r h (describe fresh e)
  | .orEnd, .error e => b.finish r [b.entry h (resultValue result)] (.error e)
  | .finish, result => b.finish r [b.entry h (resultValue result)] result
  | _, result => b.log r h (resultValue result)

/-- Logs the outcome of a single poll, and drops the future afterwards. -/
def sample (b : Body) (r : Registry) (h : Heading) : Poll Routine → Step guest
  | .pending f => ⟨r, [b.entry h (.str "pending")], .request (.drop f) (.body b .next)⟩
  | .ready result f => ⟨r, [b.entry h (resultValue result)], .request (.drop f) (.body b .next)⟩

/-! ## Loops and handles -/

/-- The configuration that a loop statement asks for. -/
def config (id : String) (name : Option String) (park : Option Nat)
    (handler : Option (List Statement)) : Except Payload (Config guest) :=
  let c : Config guest := Config.default
  let c := { c with
    name := name.getD c.name
    handler := handler.map (fun body => ⟨"handler:" ++ id, body⟩) }
  match park with
  | some micros => c.withPark ⟨micros⟩
  | none => .ok c

/-- Starts to build a loop, and announces how if asked to. -/
def buildLoop (b : Body) (r : Registry) (h : Heading) (id : String) (announce : Bool) :
    Except Payload (Config guest) → Step guest
  | .error panic => ⟨r, [], .raise panic (.body b .next)⟩
  | .ok c =>
      let notes := if announce then [.entry b.who "builder" .null (.str c.debug)] else []
      ⟨r, notes, .request (.build c) (.body b (.built h id))⟩

/-- Logs what a statement came to; a loop that nobody needs any more is dropped first. -/
def logAfterClosing (b : Body) (r : Registry) (h : Heading) (l : LoopId) (v : Value) : Step guest :=
  if r.needs l then b.log r h v else b.ask r (.close l) (.note h v)

/-- Names a new loop; one that had the name before is dropped, unless a statement is at work on
it. -/
def nameLoop (w : World guest) (b : Body) (r : Registry) (h : Heading) (id : String) (l : LoopId) :
    Step guest :=
  let v := .obj [("name", .str (w.loopName l)), ("debug", .str (w.loopDebug l))]
  match r.here.loops.find? id with
  | some old => b.logAfterClosing (r.nameLoop id l) h old v
  | none => b.log (r.nameLoop id l) h v

/-- Drops a loop, unless a statement is at work on it. -/
def dropLoop (b : Body) (r : Registry) (h : Heading) (id : String) : Step guest :=
  match r.here.loops.find? id with
  | none => b.refuse r h "unknown loop"
  | some l =>
      if r.holds l then b.refuse r h "loop is running"
      else b.ask (r.eraseLoop id) (.close l) (.note h (okValue .null))

/-- Runs an awaitable on a loop. The statement is at work on the loop from here to its end. -/
def blockOn (w : World guest) (b : Body) (r : Registry) (h : Heading) (first : Nat)
    (loop : String) (a : Awaitable) : Step guest :=
  match r.here.loops.find? loop with
  | none => b.refuse r h "unknown loop"
  | some l =>
      match a.build w r b.who first with
      | .ok f => b.ask (r.hold l) (.blockOn l f) (.blocked h l)
      | .error u => b.ask (r.hold l) (.run (.windUp u.parts none .done)) (.unblocked h l)

/-- Logs how a main future ended; its loop is dropped if it lost its name meanwhile. -/
def replyBlocked (b : Body) (r : Registry) (h : Heading) (l : LoopId) (v : Value) : Step guest :=
  b.logAfterClosing (r.release l) h l v

/-- The names of the loops that entry functions run on. -/
def entryName : String → Option String
  | "default" => some (Config.default (G := guest)).name
  | "named" => some "entry, \"quoted\""
  | "raw" => some "raw \"name\" \\n"
  | "empty" => some ""
  | _ => none

/-- The future of an entry function that runs a program. -/
def entryFuture (which : String) (p : Program) : Future Routine :=
  if which = "empty" ∧ p.name = "early" then .own (.declined p.offer) else p.offer

/-- Starts an entry function by building its loop. -/
def startEntry (b : Body) (r : Registry) (h : Heading) (which : String) (p : Program) :
    Step guest :=
  match entryName which with
  | none => b.refuse r h "bad statement"
  | some name =>
      b.ask r (.build { Config.default with name }) (.entering h (entryFuture which p))

/-- What an entry function panics with inside a running loop. -/
def entryPanic (e : Error) : Payload :=
  .text ("#[taskbridge::main] must not run inside another event loop: " ++ e.debug)

/-- Names a handle to the current loop. -/
def current (w : World guest) (b : Body) (r : Registry) (h : Heading) (id : String) : Step guest :=
  match w.thread.current with
  | some l => b.log (r.nameHandle id l) h (okValue (.str (w.loopName l)))
  | none => b.log r h (failure .noActiveLoop)

/-! ## Reading objects -/

/-- What is known of a loop. -/
def loopInfo (w : World guest) (l : LoopId) : Value :=
  .obj [("name", .str (w.loopName l)), ("pending", .ofNat (w.pendingTasks l)),
    ("debug", .str (w.loopDebug l))]

/-- What is known of a handle. -/
def handleInfo (w : World guest) (l : LoopId) : Value :=
  .obj [("name", .str (w.loopName l)), ("closed", .bool (w.isClosed l)),
    ("debug", .str (w.handleDebug l))]

/-- What is known of a source. -/
def sourceInfo (w : World guest) (s : Source) : Value :=
  .obj [("settled", .bool s.settled), ("loop", .str (w.loopName s.loop)),
    ("closed", .bool (w.isClosed s.loop)), ("debug", .str (w.sourceDebug s))]

/-- What is known of a task. -/
def taskInfo (w : World guest) (c : CellId) : Value :=
  .obj [("completed", .bool (w.isSettled c)), ("debug", .str (w.taskDebug c))]

/-- What is known of a join slot. -/
def joinInfo (w : World guest) (j : JoinId) : Value :=
  .obj [("finished", .bool (w.isFinished j)), ("debug", .str (w.joinDebug j))]

/-- Two things known by name, or the reason why one of them is not. -/
def both {α : Type} (kind : String) (names : Names α) (a b : String) : Except String (α × α) :=
  match names.find? a, names.find? b with
  | some x, some y => .ok (x, y)
  | _, _ => .error ("unknown " ++ kind)

/-! ## All statements -/

/-- Carries out an instruction, the faults in it numbered from `first` on. -/
def carryOut (w : World guest) (b : Body) (r : Registry) (h : Heading) (first : Nat)
    (action : Action) : Step guest :=
  let handle := fun id => known "handle" (r.handles.find? id)
  let source := fun id => known "source" (r.sources.find? id)
  match action with
  | .log => b.log r h .null
  | .finish v => b.finish r [] (.ok v)
  | .fail e => b.finish r [] (.error (e.renew first))
  | .panic p => ⟨r, [], .raise p (.body b .next)⟩
  | .describe e => b.log r h (describe w.identities (e.renew first))
  | .listen => ⟨r, [.listen, b.entry h .null], .proceed (.body b .next)⟩
  | .loop id name park handler announce =>
      b.buildLoop r h id announce (config id name park handler)
  | .dropLoop id => b.dropLoop r h id
  | .loopInfo id => b.logKnown r h (known "loop" (r.here.loops.find? id)) (loopInfo w)
  | .blockOn loop a => b.blockOn w r h first loop a
  | .entry which p => b.startEntry r h which p
  | .handle id loop =>
      match r.here.loops.find? loop with
      | some l => b.log (r.nameHandle id l) h (okValue .null)
      | none => b.refuse r h "unknown loop"
  | .current id => b.current w r h id
  | .handleInfo id => b.logKnown r h (handle id) (handleInfo w)
  | .sameLoop x y =>
      b.logKnown r h (both "handle" r.handles x y)
        (fun (l, l') => .arr [.bool (l = l'), .bool (l' = l)])
  | .call id who body guard =>
      b.askKnown r h (handle id) (.callSoon · ⟨who, body, guard⟩) (.unit h)
  | .source id none => b.ask r (.source none) (.sourced h id)
  | .source id (some name) => b.askKnown r h (handle name) (.source ∘ some) (.sourced h id)
  | .cloneSource id of =>
      match r.sources.find? of with
      | some s => b.log (r.nameSource id s) h (okValue .null)
      | none => b.refuse r h "unknown source"
  | .settle id (.faulted f) =>
      b.askKnown r h (source id) (.settle · (.faulted (f.renew first))) (.unit h)
  | .settle id o => b.askKnown r h (source id) (.settle · o) (.unit h)
  | .sourceInfo id =>
      b.logKnown r h (known "source" ((r.sources.find? id).bind w.source?)) (sourceInfo w)
  | .task id name =>
      match cellOf w r name with
      | .ok c => b.log (r.nameTask id c) h (okValue .null)
      | .error why => b.refuse r h why
  | .taskInfo id => b.logKnown r h (known "task" (r.tasks.find? id)) (taskInfo w)
  | .spawn id p => b.ask r (.spawn p.offer) (.spawned h id)
  | .start p => b.ask r (.start p.offer) (.unit h)
  | .startOn id p => b.askKnown r h (handle id) (.startOn · p.offer) (.unit h)
  | .joinInfo id => b.logKnown r h (known "join" (r.here.joins.find? id)) (joinInfo w)
  | .forget id => b.log (r.forget id) h (.bool (r.knows id))
  | .getResult a discard =>
      match a.build w r b.who first with
      | .ok f => b.ask r (.getResult f) (.got h discard)
      | .error u => b.dropAndRefuse r h u.parts badAwaitable
  | .wake id consume =>
      b.askKnown (if consume then { r with wakers := r.wakers.erase id } else r) h
        (known "waker" (r.wakers.find? id)) .wake (.note h .null)
  | .willWake x y => b.logKnown r h (both "waker" r.wakers x y) (fun (k, k') => .bool (k = k'))
  | .thread id body => b.ask r (.thread (.thread id body)) (.joined h)
  | .background id delay body =>
      b.ask r (.background (.thread id body) delay) (.launched h id)
  | .joinThread id =>
      b.askKnown (r.eraseThread id) h (known "thread" (r.here.threads.find? id)) .joinThread
        (.joined h)
  | .guarded body => b.ask r (.guarded (.body ⟨b.who, body, .plain⟩ .next)) (.stopped h)
  | action =>
      match b.waker? with
      | some k => b.carryOutWaiting w r h first k action
      | none => b.refuse r h "bad statement"

/-- Goes on with the next statement. An instruction that makes faults first asks for their
identities; a body that is repeated is written out one round at a time. -/
def next (w : World guest) (b : Body) (r : Registry) : Step guest :=
  match b.rest with
  | [] => b.finish r [] (.ok .null)
  | .rounds next bound body :: rest =>
      let rest := if next < bound then body next ++ .rounds (next + 1) bound body :: rest else rest
      ⟨r, [], .proceed (.body { b with rest } .next)⟩
  | .single h action :: rest =>
      let b := { b with rest }
      match action.faults with
      | 0 => b.carryOut w r h 0 action
      | n => b.ask r (.identities n) (.numbered h action)

/-! ## Answers -/

/-- Takes the answer that the body waited for. -/
def reply (w : World guest) (b : Body) (r : Registry) : Point → Answer guest → Step guest
  | .numbered h action, .identities first => b.carryOut w r h first action
  | .note h v, _ => b.log r h v
  | .unit h, .unit result => b.log r h (unitValue result)
  | .built h id, .loop l => b.nameLoop w r h id l
  | .entering h f, .loop l => b.ask r (.blockOn l f) (.entered h l)
  | .blocked h l, .blocked (.ok result) => b.replyBlocked r h l (okValue (resultValue result))
  | .blocked h l, .blocked (.error e) => b.replyBlocked r h l (failure e)
  | .unblocked h l, _ => b.replyBlocked r h l (refusal badAwaitable)
  | .entered h l, .blocked (.ok result) => b.ask r (.close l) (.note h (resultValue result))
  | .entered h l, .blocked (.error e) => ⟨r, [], .raise (entryPanic e) (.body b (.entered h l))⟩
  | .got h true, .result (.ok _) => b.log r h (okValue .null)
  | .got h _, .result result => b.log r h (resultValue result)
  | .sourced h id, .source (.ok s) => b.log (r.nameSource id s) h (okValue .null)
  | .sourced h _, .source (.error e) => b.log r h (failure e)
  | .spawned h id, .join (.ok j) => b.log (r.nameJoin id j) h (okValue .null)
  | .spawned h _, .join (.error e) => b.log r h (failure e)
  | .stopped h, .stopped panic => b.log r h (stopValue panic)
  | .joined h, .thread t panic =>
      ⟨r, [.thread b.who h.op h.subject t panic], .proceed (.body b .next)⟩
  | .launched h id, .thread t _ => b.log (r.nameThread id t) h .null
  | .polled h use, .polled p => b.replyPolled r h use p
  | .settled h use result, _ => b.useResult w.identities r h use result
  | .sampled h, .polled p => b.sample r h p
  | .yielded h n, _ => b.suspend r (.yielding h n)
  | .comparand first y, _ => b.refuseComparison w r first y
  | .comparing g, .polled (.pending f) => b.suspend r (.first f g)
  | .comparing g, .polled (.ready result f) => b.ask r (.drop f) (.compareNext result g)
  | .compareNext result g, _ =>
      match b.waker? with
      | some k => b.ask r (.poll g k) (.compared result)
      | none => b.next w r
  | .compared result, .polled (.pending g) => b.suspend r (.second result g)
  | .compared result, .polled (.ready result' g) =>
      b.ask r (.drop g) (.note comparison (sameFaultValue result result'))
  | _, _ => b.next w r

/-- Goes on after a pause, in a poll with waker `k`. -/
def resume (w : World guest) (b : Body) (r : Registry) (k : WakerId) : Pause → Step guest
  | .start => b.next w r
  | .yielding h n => b.yield r h k n
  | .awaiting h use f => b.ask r (.poll f k) (.polled h use)
  | .first f g => b.ask r (.poll f k) (.comparing g)
  | .second result g => b.ask r (.poll g k) (.compared result)

/-- What is cleaned up when the body panics at a point: the loop that it is at work on, and the
futures that are not being polled. -/
def held : Point → Option LoopId × List (Future Routine)
  | .entering _ f => (none, [f])
  | .blocked _ l => (some l, [])
  | .unblocked _ l => (some l, [])
  | .entered _ l => (some l, [])
  | .comparing g => (none, [g])
  | .compareNext _ g => (none, [g])
  | _ => (none, [])

/-- Cleans up after a panic at a point; `remains` is left of the future that was polled. -/
def unwind (b : Body) (p : Point) (remains : Option (Future Routine)) : Run :=
  let futures := remains.toList ++ (held p).2
  let tidy : Run := .windUp futures b.guard? (.remains none)
  match (held p).1 with
  | some l => .closing l tidy
  | none => tidy

end RunLoop.Script.Body
