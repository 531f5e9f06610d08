import RunLoop.Text.Quoted
import RunLoop.Value

/-!
# Errors and the faults they carry

An `Error` is what a loop, a completion source or a bridge answers when it cannot give a value. A
`Fault` is an arbitrary error that a producer bound to a task, together with an identity: copies of
a fault share it, and a fault made anew never does.

Errors, values and the payloads of panics are data here. A guest has destructors, those of its
coroutines and callbacks, and they may do anything; but what is said in this module is given up
without a trace. So it is assumed of the errors that a producer binds, of the values that tasks come
to and of what a panic carries that they have no destructor, or one that neither panics nor does
anything that could be seen. The assumption is not idle: a payload is given up where its panic is
caught, outside of what catches it, and if its destructor panics, that panic gets out of there.
Likewise, the texts of a bound error are given with it, so that to show an error does nothing.

* `Error.message`, `Error.debug` are the two texts of an error.
* `Error.sources` lists the texts met when walking from an error to its causes.
* `Fault.same` tells whether two faults are copies of one.
* `Error.renew` is an error of the same shape whose faults have identities of their own.
* `Payload` is what a panic carries.
-/

namespace RunLoop

mutual

/-- Why no value was given. -/
inductive Error where
  | noActiveLoop
  | nestedLoop
  | alreadyCompleted
  | loopClosed
  | cancelled
  | faulted (fault : Fault)
  | panicked (message : String)

/-- A bound error with an identity that its copies share. -/
inductive Fault where
  | mk (identity : Nat) (bound : Bound)

/-- The errors that can be bound: plain texts, errors of input and output, errors of any other
origin with the texts that they bring along, and the errors and faults of the loop itself. All of
them are given up without a trace. -/
inductive Bound where
  | text (message : String)
  | stream (message : String)
  /-- An error of another origin, without a cause. -/
  | foreign (message debug : String)
  /-- An error of another origin that has a cause. -/
  | caused (message debug : String) (cause : Bound)
  | error (error : Error)
  | fault (fault : Fault)

end

instance : Inhabited Error := ⟨.cancelled⟩

/-- What a task, a completion source or an awaitable comes to. -/
abbrev Result := Except Error Value

/-! ## Texts -/

mutual

/-- The text of an error for a reader. -/
def Error.message : Error → String
  | .noActiveLoop => "no event loop is running on the current thread"
  | .nestedLoop => "cannot block on a new event loop from inside a running event loop"
  | .alreadyCompleted => "the completion source has already been settled"
  | .loopClosed => "the event loop is closed"
  | .cancelled => "the task was cancelled"
  | .faulted f => "the task faulted: " ++ f.message
  | .panicked m => "the task panicked: " ++ m

/-- A fault reads as the error bound in it. -/
def Fault.message : Fault → String
  | .mk _ b => b.message

/-- The text of a bound error for a reader. -/
def Bound.message : Bound → String
  | .text m => m
  | .stream m => m
  | .foreign m _ => m
  | .caused m _ _ => m
  | .error e => e.message
  | .fault f => f.message

end

mutual

/-- The text of an error that shows how it is built. -/
def Error.debug : Error → String
  | .noActiveLoop => "NoActiveLoop"
  | .nestedLoop => "NestedLoop"
  | .alreadyCompleted => "AlreadyCompleted"
  | .loopClosed => "LoopClosed"
  | .cancelled => "Cancelled"
  | .faulted f => "Faulted(" ++ f.debug ++ ")"
  | .panicked m => "Panicked(" ++ Text.Quoted.quote m ++ ")"

/-- A fault shows the error bound in it. -/
def Fault.debug : Fault → String
  | .mk _ b => b.debug

/-- The text of a bound error that shows how it is built. -/
def Bound.debug : Bound → String
  | .text m => Text.Quoted.quote m
  | .stream m => "Custom \x7b kind: Other, error: " ++ Text.Quoted.quote m ++ " \x7d"
  | .foreign _ d => d
  | .caused _ d _ => d
  | .error e => e.debug
  | .fault f => f.debug

end

/-- The name of the kind of an error. -/
def Error.kind : Error → String
  | .noActiveLoop => "NoActiveLoop"
  | .nestedLoop => "NestedLoop"
  | .alreadyCompleted => "AlreadyCompleted"
  | .loopClosed => "LoopClosed"
  | .cancelled => "Cancelled"
  | .faulted _ => "Faulted"
  | .panicked _ => "Panicked"

/-! ## Causes -/

mutual

/-- The texts met when walking from an error to its causes, the error itself left out. -/
def Error.sources : Error → List String
  | .faulted f => f.message :: f.sources
  | _ => []

/-- A fault stands in for its bound error: the walk goes on with the causes of that. -/
def Fault.sources : Fault → List String
  | .mk _ b => b.sources

/-- The texts met when walking from a bound error to its causes. -/
def Bound.sources : Bound → List String
  | .caused _ _ c => c.message :: c.sources
  | .error e => e.sources
  | .fault f => f.sources
  | _ => []

end

/-! ## Kinds -/

namespace Error

/-- Whether the producer cancelled the task. -/
def isCancelled : Error → Bool
  | cancelled => true
  | _ => false

/-- Whether the producer bound a fault. -/
def isFaulted : Error → Bool
  | faulted _ => true
  | _ => false

/-- Whether the error tells of a misuse of the loop. -/
def isUsage : Error → Bool
  | noActiveLoop => true
  | nestedLoop => true
  | alreadyCompleted => true
  | _ => false

/-- The fault that the error carries. -/
def fault? : Error → Option Fault
  | faulted f => some f
  | _ => none

end Error

namespace Fault

/-- The identity shared by all copies of a fault. -/
def identity : Fault → Nat
  | mk i _ => i

/-- The error bound in a fault. -/
def bound : Fault → Bound
  | mk _ b => b

/-- Whether two faults are copies of one. -/
def same (f g : Fault) : Bool :=
  f.identity = g.identity

end Fault

/-! ## Identities -/

mutual

/-- The number of faults in an error. -/
def Error.faults : Error → Nat
  | .faulted f => f.faults
  | _ => 0

/-- The number of faults in a fault, itself counted. -/
def Fault.faults : Fault → Nat
  | .mk _ b => b.faults + 1

/-- The number of faults in a bound error. -/
def Bound.faults : Bound → Nat
  | .caused _ _ c => c.faults
  | .error e => e.faults
  | .fault f => f.faults
  | _ => 0

end

mutual

/-- The same error with its faults numbered from `first` on. -/
def Error.renew (first : Nat) : Error → Error
  | .faulted f => .faulted (f.renew first)
  | e => e

/-- The same fault under the identity `first`, the faults inside it numbered after it. -/
def Fault.renew (first : Nat) : Fault → Fault
  | .mk _ b => .mk first (b.renew (first + 1))

/-- The same bound error with its faults numbered from `first` on. -/
def Bound.renew (first : Nat) : Bound → Bound
  | .caused m d c => .caused m d (c.renew first)
  | .error e => .error (e.renew first)
  | .fault f => .fault (f.renew first)
  | b => b

end

/-! ## Panics -/

/-- What a panic carries: a text, or something that cannot be shown. Where the panic is caught the
payload is given up without a trace: it has no destructor, or one that neither panics nor does
anything that could be seen. -/
inductive Payload where
  | text (message : String)
  | other
  deriving DecidableEq, Inhabited

namespace Payload

/-- The text of the payload, if it has one. -/
def text? : Payload → Option String
  | text m => some m
  | other => none

/-- The text reported for a panic. -/
def message : Payload → String
  | text m => m
  | other => "non-string panic payload"

/-- The error to which a panic is turned. -/
def toError (p : Payload) : Error :=
  .panicked p.message

end Payload

end RunLoop
