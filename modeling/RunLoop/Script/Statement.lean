import RunLoop.Cell

/-!
# Scripts

A script is a list of statements. Statements work on loops, tasks, sources and wakers that they
know by name, and they contain the programs, callbacks and threads that they start.

* `Statement` is an instruction with the heading under which it is logged, or repeats a body.
* `Awaitable` describes what a program can wait for.
* `Program` is code that runs as a future, `Guard` what is run when its owner is dropped.
-/

namespace RunLoop.Script

/-- What a program does with the result it waited for. -/
inductive Use where
  | keep
  /-- Go on, or end with the error. -/
  | orEnd
  /-- End with it. -/
  | finish
  /-- Go on, with an error described in full. -/
  | inspect
  deriving DecidableEq

/-- The words under which the outcome of a statement is logged. -/
structure Heading where
  op : String
  subject : Value

mutual

/-- One line of a body. -/
inductive Statement where
  /-- An instruction, with the heading under which its outcome is logged. -/
  | single (heading : Heading) (action : Action)
  /-- The statements of `body n` for each number `n` from `next` on that is below `bound`. -/
  | rounds (next bound : Nat) (body : Nat → List Statement)

/-- What an instruction does. -/
inductive Action where
  | yield (count : Nat)
  /-- Wait for an awaitable; the outcome is logged under `tag`. -/
  | await (use : Use) (tag : Value) (what : Awaitable)
  /-- Poll an awaitable once; the outcome is logged under `tag`. -/
  | poll (tag : Value) (what : Awaitable)
  | sameFault (a b : Awaitable)
  | saveWaker (id : String)
  | log
  | finish (value : Value)
  | fail (error : Error)
  | panic (payload : Payload)
  | describe (error : Error)
  /-- Have events written out as lines from now on. -/
  | listen
  | loop (id : String) (name : Option String) (park : Option Nat)
      (handler : Option (List Statement)) (announce : Bool)
  | dropLoop (id : String)
  | loopInfo (id : String)
  | blockOn (loop : String) (what : Awaitable)
  /-- Run a program under the entry function of the given name. -/
  | entry (which : String) (program : Program)
  | handle (id loop : String)
  | current (id : String)
  | handleInfo (id : String)
  | sameLoop (a b : String)
  | call (handle name : String) (body : List Statement) (guard : Option Guard)
  | source (id : String) (handle : Option String)
  | cloneSource (id of : String)
  | settle (id : String) (outcome : Outcome)
  | sourceInfo (id : String)
  | task (id source : String)
  | taskInfo (id : String)
  | spawn (id : String) (program : Program)
  | start (program : Program)
  | startOn (handle : String) (program : Program)
  | joinInfo (id : String)
  | forget (id : String)
  /-- Wait for an awaitable on a loop of its own; its value may be thrown away. -/
  | getResult (what : Awaitable) (discard : Bool)
  /-- Wake a waker, which is used up if `consume` says so. -/
  | wake (id : String) (consume : Bool)
  | willWake (a b : String)
  | thread (id : String) (body : List Statement)
  | background (id : String) (delay : Nat) (body : List Statement)
  | joinThread (id : String)
  | guarded (body : List Statement)
  | malformed

/-- What a program can wait for. -/
inductive Awaitable where
  | task (id : String)
  | observe (id : String)
  | join (id : String)
  | ready (result : Result)
  /-- An awaitable that runs as a task of its own. -/
  | nested (inner : Awaitable)
  | program (program : Program)
  | yields (count : Nat)
  /-- Pending for `count` polls, each of which is logged under `name`; nobody is woken. -/
  | polls (count : Nat) (name : Value)
  | all (parts : List Awaitable)
  | any (parts : List Awaitable)
  | malformed

/-- Code that runs as a future: the name it is logged under, its body, what it owns and the panic of
dropping it, if it has one. -/
inductive Program where
  | mk (name : String) (body : List Statement) (guard : Option Guard) (bomb : Option String)

/-- Statements that are run when the owner is dropped. -/
inductive Guard where
  | mk (name : String) (onDrop : List Statement)

end

/-! ## Faults made by a statement -/

mutual

/-- The number of faults that building an awaitable makes. -/
def Awaitable.faults : Awaitable → Nat
  | .ready (.error e) => e.faults
  | .nested a => a.faults
  | .all parts => Awaitable.faultsOfAll parts
  | .any parts => Awaitable.faultsOfAll parts
  | _ => 0

/-- The number of faults that building awaitables makes. -/
def Awaitable.faultsOfAll : List Awaitable → Nat
  | [] => 0
  | a :: rest => a.faults + Awaitable.faultsOfAll rest

end

/-- The number of faults that carrying out an action makes. -/
def Action.faults : Action → Nat
  | .await _ _ a => a.faults
  | .poll _ a => a.faults
  | .sameFault a b => a.faults + b.faults
  | .fail e => e.faults
  | .describe e => e.faults
  | .blockOn _ a => a.faults
  | .getResult a _ => a.faults
  | .settle _ (.faulted f) => f.faults
  | _ => 0

end RunLoop.Script
