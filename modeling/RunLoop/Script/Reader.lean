import RunLoop.Script.Statement

/-!
# Reading scripts

Scripts come as plain data: a statement is a record whose `do` names the instruction. A repeated
body is read anew for every round, with the number of the round filled in.

* `readBody` reads a list of statements, `readSteps` one that is to be run step by step.
* `readError`, `readBound` read descriptions of errors.
-/

namespace RunLoop.Script

/-! ## Errors -/

/-- How an error of the guest's own shows itself. -/
def customDebug (message cause : String) : String :=
  "Custom \x7b msg: " ++ Text.Quoted.quote message ++ ", cause: " ++ cause ++ " \x7d"

/-- An error of the guest's own: it shows its message and its cause. -/
def custom (message : String) : Option Bound → Bound
  | none => .foreign message (customDebug message "None")
  | some cause => .caused message (customDebug message ("Some(" ++ cause.debug ++ ")")) cause

mutual

/-- The error that a record describes. -/
def readError : Nat → Value → Error
  | 0, _ => .cancelled
  | n + 1, v =>
      match v.text "kind" with
      | "NoActiveLoop" => .noActiveLoop
      | "NestedLoop" => .nestedLoop
      | "AlreadyCompleted" => .alreadyCompleted
      | "LoopClosed" => .loopClosed
      | "Panicked" => .panicked (v.text "msg")
      | "Faulted" => .faulted (.mk 0 (readBound n (v.field "fault")))
      | _ => .cancelled

/-- The bound error that a record describes. -/
def readBound : Nat → Value → Bound
  | 0, _ => .text ""
  | n + 1, v =>
      match v with
      | .obj [("io", m)] => .stream (m.text?.getD "")
      | .obj [("custom", c)] =>
          match c.field? "cause" with
          | some cause =>
              if cause.isRecord then custom (c.text "msg") (some (readBound n cause))
              else custom (c.text "msg") none
          | none => custom (c.text "msg") none
      | .obj [("error", e)] => .error (readError n e)
      | .obj [("fault", f)] => .fault (.mk 0 (readBound n f))
      | v => .text (v.text "str")

end

/-- The panic that a statement describes: a text, or a payload that is not one. -/
def readPayload (v : Value) : Payload :=
  match v.field? "msg" with
  | some (.num _) => .other
  | _ => .text (v.text "msg")

/-! ## Statements -/

/-- The field that a statement is logged with. -/
def subjectOf (op : String) (v : Value) : Value :=
  match op with
  | "log" => v.field "msg"
  | "block_on" => v.field "loop"
  | "entry" => v.field "which"
  | "call" => v.field "handle"
  | "start_on" => v.field "handle"
  | "same_loop" => .null
  | "will_wake" => .null
  | "catch" => .null
  | _ => v.field "id"

mutual

/-- The statements of a list. -/
def readBody : Nat → List Value → List Statement
  | 0, _ => []
  | n + 1, vs => vs.map (readStatement n)

/-- The statement that a record stands for. -/
def readStatement : Nat → Value → Statement
  | 0, _ => .single ⟨"", .null⟩ .malformed
  | n + 1, v =>
      match v.text "do" with
      | "repeat" =>
          let hole := "\x7b" ++ ((v.field? "var").bind Value.text?).getD "i" ++ "\x7d"
          .rounds 0 (v.count "n")
            (fun i => readBody n (Value.substituteList hole i (v.list "body")))
      | op => .single ⟨op, subjectOf op v⟩ (readAction n op v)

/-- The action that a record describes. -/
def readAction : Nat → String → Value → Action
  | 0, _, _ => .malformed
  | n + 1, op, v =>
      let id := v.text "id"
      match op with
      | "yield" => .yield ((v.countAt? "n").getD 1)
      | "await" => .await .keep (v.field "tag") (readAwaitable n (v.field "what"))
      | "try" => .await .orEnd (v.field "tag") (readAwaitable n (v.field "what"))
      | "ret" => .await .finish (v.field "tag") (readAwaitable n (v.field "what"))
      | "inspect" => .await .inspect (v.field "tag") (readAwaitable n (v.field "what"))
      | "poll" => .poll (v.field "tag") (readAwaitable n (v.field "what"))
      | "same_fault" => .sameFault (readAwaitable n (v.field "a")) (readAwaitable n (v.field "b"))
      | "save_waker" => .saveWaker id
      | "log" => .log
      | "return" => .finish (v.field "value")
      | "fail" => .fail (readError n (v.field "error"))
      | "panic" => .panic (readPayload v)
      | "error" => .describe (readError n (v.field "error"))
      | "init_log" => .listen
      | "loop" =>
          .loop id ((v.field? "name").bind Value.text?) (v.countAt? "park_us")
            (match v.field "handler" with
              | .obj fields => some (readBody n ((Value.obj fields).list "body"))
              | _ => none)
            (v.flag "show")
      | "drop_loop" => .dropLoop id
      | "loop_info" => .loopInfo id
      | "block_on" => .blockOn (v.text "loop") (readAwaitable n (v.field "what"))
      | "entry" => .entry (v.text "which") (readProgram n (v.field "prog"))
      | "handle" => .handle id (v.text "loop")
      | "current" => .current id
      | "handle_info" => .handleInfo id
      | "same_loop" => .sameLoop (v.text "a") (v.text "b")
      | "call" =>
          .call (v.text "handle") (((v.field? "name").bind Value.text?).getD "cb")
            (readBody n (v.list "body")) (readGuard n (v.field "guard"))
      | "source" => .source id ((v.field? "handle").bind Value.text?)
      | "clone_source" => .cloneSource id (v.text "of")
      | "set_result" => .settle id (.completed (v.field "value"))
      | "set_cancelled" => .settle id .cancelled
      | "set_exception" => .settle id (.faulted (.mk 0 (readBound n (v.field "fault"))))
      | "source_info" => .sourceInfo id
      | "task" => .task id (v.text "source")
      | "task_info" => .taskInfo id
      | "spawn" => .spawn id (readProgram n (v.field "prog"))
      | "start" => .start (readProgram n (v.field "prog"))
      | "start_on" => .startOn (v.text "handle") (readProgram n (v.field "prog"))
      | "join_info" => .joinInfo id
      | "forget" => .forget id
      | "get_result" => .getResult (readAwaitable n (v.field "what")) false
      | "run_sync" => .getResult (readAwaitable n (v.field "what")) true
      | "wake" => .wake id true
      | "wake_ref" => .wake id false
      | "will_wake" => .willWake (v.text "a") (v.text "b")
      | "thread" => .thread id (readBody n (v.list "body"))
      | "thread_bg" => .background id (v.count "delay_ms") (readBody n (v.list "body"))
      | "join_thread" => .joinThread id
      | "catch" => .guarded (readBody n (v.list "body"))
      | _ => .malformed

/-- The awaitable that a record with one key describes. -/
def readAwaitable : Nat → Value → Awaitable
  | 0, _ => .malformed
  | n + 1, v =>
      match v with
      | .obj [("task", id)] => .task (id.text?.getD "")
      | .obj [("observe", id)] => .observe (id.text?.getD "")
      | .obj [("join", id)] => .join (id.text?.getD "")
      | .obj [("zero", _)] => .ready (.ok .null)
      | .obj [("value", x)] => .ready (.ok x)
      | .obj [("error", e)] => .ready (.error (readError n e))
      | .obj [("awaiter", a)] => .nested (readAwaitable n a)
      | .obj [("prog", p)] => .program (readProgram n p)
      | .obj [("yields", c)] => .yields (c.count?.getD 0)
      | .obj [("polls", p)] => .polls (p.count "n") (p.field "name")
      | .obj [("all", parts)] => .all (parts.items.map (readAwaitable n))
      | .obj [("any", parts)] => .any (parts.items.map (readAwaitable n))
      | _ => .malformed

/-- The program that a record describes. -/
def readProgram : Nat → Value → Program
  | 0, _ => .mk "?" [] none none
  | n + 1, v =>
      .mk (((v.field? "name").bind Value.text?).getD "?") (readBody n (v.list "body"))
        (readGuard n (v.field "guard")) ((v.field? "drop_bomb").bind Value.text?)

/-- The guard that a record describes; anything but a record is none. -/
def readGuard : Nat → Value → Option Guard
  | 0, _ => none
  | n + 1, v =>
      if v.isRecord then some (.mk (v.text "name") (readBody n (v.list "on_drop"))) else none

end

/-! ## Whole scripts -/

/-- Steps enough to read every part of a tree of data, in which each level is read by at most three
readers in turn. -/
def readingSteps (vs : List Value) : Nat :=
  3 * (Value.depthList vs + 2)

/-- The steps of a script, each with its word. -/
def readSteps (vs : List Value) : List (String × Statement) :=
  let n := readingSteps vs
  vs.map (fun v => (v.text "do", readStatement n v))

end RunLoop.Script
