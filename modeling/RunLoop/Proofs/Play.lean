import RunLoop.Proofs.Walk
import RunLoop.Script.Code

/-!
# Scripts that are played

A script is played from the start, in an empty world, with what happens on the way. Whatever it
comes to is reached by a run.

* `Script.play` plays the first steps of a script, `Script.follow` keeps the machines on the way.
* `Script.onLoop` is a script that runs main futures on one loop, one after the other.
-/

namespace RunLoop.Script

/-- The first `n` steps of a script, with what happens in them. -/
def play (steps : List (String × Statement)) (n : Nat) :
    List (Happening guest) × Machine guest :=
  (Machine.start Registry.empty (Run.script steps)).record code n

theorem reached_play (steps : List (String × Statement)) (n : Nat) :
    Machine.Reached code (play steps n).1 (play steps n).2 :=
  ⟨Registry.empty, Run.script steps, Machine.history_record code _ n⟩

/-- The machines in which the first `n` steps of a script are taken, and the one after them. -/
def follow (steps : List (String × Statement)) (n : Nat) :
    List (Machine guest) × Machine guest :=
  (Machine.start Registry.empty (Run.script steps)).trace code n

theorem walked_follow (steps : List (String × Statement)) (n : Nat) :
    Machine.Walked code (follow steps n).1 (follow steps n).2 :=
  ⟨Registry.empty, Run.script steps, Machine.walk_trace code _ n⟩

/-- Whatever is played after the first `n` steps goes on from where they came to. -/
theorem history_play (steps : List (String × Statement)) (n k : Nat) :
    Machine.History code (play steps n).2 ((play steps n).2.record code k).1
      ((play steps n).2.record code k).2 :=
  Machine.history_record code _ k

/-- A statement that is logged under the subject `subject`. -/
def line (op subject : String) (action : Action) : Statement :=
  .single ⟨op, .str subject⟩ action

/-- Builds a loop with a handle and runs main futures with the given bodies on it. -/
def onLoop (bodies : List (List Statement)) : List (String × Statement) :=
  ("loop", line "loop" "L" (.loop "L" none none none false)) ::
    ("handle", line "handle" "h" (.handle "h" "L")) ::
    bodies.map (fun body =>
      ("block_on", line "block_on" "L" (.blockOn "L" (.program (.mk "main" body none none)))))

end RunLoop.Script
