import RunLoop.Error
import RunLoop.Text.Duration

/-!
# Events that the loop reports

Everything the loop tells a listener is an `Event`: its level, its message, its fields and the part
of the loop that it comes from are functions of it.

* `Level.allows` orders the levels by severity.
* `Event.message`, `Event.fields`, `Event.target` give the parts of an event.
-/

namespace RunLoop

/-! ## Levels -/

/-- How severe an event is, and how much a listener wants to hear: `off` stands below all. -/
inductive Level where
  | off
  | error
  | warn
  | info
  | debug
  | trace
  deriving DecidableEq, Inhabited

namespace Level

/-- The place of a level: the more is heard, the higher. -/
def rank : Level → Nat
  | off => 0
  | error => 1
  | warn => 2
  | info => 3
  | debug => 4
  | trace => 5

/-- Whether a listener at `limit` hears an event of level `l`. -/
def allows (limit l : Level) : Bool :=
  l.rank ≤ limit.rank

/-- The name of a level. -/
def name : Level → String
  | off => "off"
  | error => "error"
  | warn => "warn"
  | info => "info"
  | debug => "debug"
  | trace => "trace"

/-- All levels, from the quietest. -/
def all : List Level :=
  [off, error, warn, info, debug, trace]

/-- The level of a name. -/
def ofName? (name : String) : Option Level :=
  all.find? (fun l => l.name = name)

end Level

/-! ## Events -/

/-- The way in which a completion source was settled. -/
inductive Transition where
  | completed
  | cancelled
  | faulted
  deriving DecidableEq, Inhabited

/-- The name of a transition. -/
def Transition.name : Transition → String
  | .completed => "completed"
  | .cancelled => "cancelled"
  | .faulted => "faulted"

/-- What a waker queues when it is woken: a task by its slot, or the main future. -/
inductive Target where
  | task (slot : Nat)
  | main
  deriving DecidableEq, Inhabited

/-- The text of a target. -/
def Target.render : Target → String
  | .task slot => "Task(" ++ toString slot ++ ")"
  | .main => "Main"

/-- Something the loop reports. The first text of an event is the name of its loop. -/
inductive Event where
  | built (loop : String) (park : Text.Duration)
  | entering (loop : String)
  | leaving (loop : String)
  | nestedRejected (loop : String)
  | nestedResult
  | closed (loop : String) (dropped discarded : Nat)
  | spawned (loop : String) (slot : Nat)
  | finished (loop : String) (slot : Nat)
  | wakeDropped (target : Target)
  | alreadySettled (transition : Transition)
  | settled (transition : Transition)
  | handOffRejected (loop : String) (error : Error)
  | unhandled (loop : String) (error : Error)
  | handlerPanicked (loop : String) (error : Error) (panic : String)
  | strayStart (error : Error)

namespace Event

/-- How severe an event is. -/
def level : Event → Level
  | spawned .. => .trace
  | finished .. => .trace
  | wakeDropped .. => .trace
  | settled .. => .trace
  | handOffRejected .. => .warn
  | unhandled .. => .error
  | handlerPanicked .. => .error
  | strayStart .. => .error
  | _ => .debug

/-- The text of an event. -/
def message : Event → String
  | built .. => "event loop built"
  | entering .. => "entering event loop"
  | leaving .. => "leaving event loop"
  | nestedRejected .. => "rejected nested block_on"
  | nestedResult => "get_result called from inside a running event loop"
  | closed .. => "event loop closed"
  | spawned .. => "task spawned"
  | finished .. => "task finished"
  | wakeDropped .. => "wake-up dropped, event loop is closed"
  | alreadySettled .. => "completion source already settled"
  | settled .. => "completion source settled"
  | handOffRejected .. => "hand-off rejected"
  | unhandled .. => "unhandled failure in background task"
  | handlerPanicked .. => "unhandled-failure handler panicked"
  | strayStart .. => "start_on callback ran outside its loop"

/-- A detail of an event: its name, its text, and whether a line shows the text in quotes. -/
structure Field where
  name : String
  text : String
  quoted : Bool

/-- A field that is shown as it is. -/
def plain (name text : String) : Field :=
  ⟨name, text, false⟩

/-- The fields of an event, in the order in which they are shown. -/
def fields : Event → List Field
  | built loop park => [plain "event_loop" loop, plain "park_timeout" park.render]
  | entering loop => [plain "event_loop" loop]
  | leaving loop => [plain "event_loop" loop]
  | nestedRejected loop => [plain "event_loop" loop]
  | nestedResult => []
  | closed loop dropped discarded =>
      [plain "event_loop" loop, plain "dropped_tasks" (toString dropped),
        plain "discarded_entries" (toString discarded)]
  | spawned loop slot => [plain "event_loop" loop, plain "task" (toString slot)]
  | finished loop slot => [plain "event_loop" loop, plain "task" (toString slot)]
  | wakeDropped target => [plain "wake_target" target.render]
  | alreadySettled t => [⟨"transition", t.name, true⟩]
  | settled t => [⟨"transition", t.name, true⟩]
  | handOffRejected loop e => [plain "event_loop" loop, plain "error" e.message]
  | unhandled loop e => [plain "event_loop" loop, plain "error" e.message]
  | handlerPanicked loop e panic =>
      [plain "event_loop" loop, plain "error" e.message, plain "handler_panic" panic]
  | strayStart e => [plain "error" e.message]

/-- The part of the loop that reports an event. -/
def target : Event → String
  | built .. => "taskbridge::runtime::builder"
  | unhandled .. => "taskbridge::runtime::builder"
  | handlerPanicked .. => "taskbridge::runtime::builder"
  | handOffRejected .. => "taskbridge::runtime::handle"
  | wakeDropped .. => "taskbridge::runtime::task::waker"
  | nestedResult => "taskbridge::task::bridge"
  | strayStart .. => "taskbridge::task::bridge"
  | alreadySettled .. => "taskbridge::task::completion_source"
  | settled .. => "taskbridge::task::completion_source"
  | _ => "taskbridge::runtime::core"

end Event

end RunLoop
