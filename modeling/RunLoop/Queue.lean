/-!
# The hand-off queue

All work of a loop goes through one queue: wake-ups and callbacks are put in at the back, from
anywhere, and the loop takes everything that is queued as one batch. A closed queue accepts nothing.

* `Queue.push?` puts an entry in, unless the queue is closed.
* `Queue.takeBatch` takes everything out.
* `Queue.putBack` returns what is left of a batch ahead of newer entries.
* `Queue.putBack_takeBatch`: a batch that is returned untouched leaves the queue as it was.
-/

namespace RunLoop

/-- Entries in the order in which they came, and whether more are accepted. -/
structure Queue (α : Type) where
  entries : List α
  closed : Bool

namespace Queue

variable {α : Type}

/-- An open queue without entries. -/
def empty : Queue α :=
  ⟨[], false⟩

instance : Inhabited (Queue α) := ⟨empty⟩

/-- Puts an entry in at the back; a closed queue refuses it. -/
def push? (q : Queue α) (a : α) : Option (Queue α) :=
  if q.closed then none else some { q with entries := q.entries ++ [a] }

/-- Takes every entry queued so far. -/
def takeBatch (q : Queue α) : Queue α × List α :=
  ({ q with entries := [] }, q.entries)

/-- Puts unprocessed entries back ahead of those that came since. -/
def putBack (q : Queue α) (rest : List α) : Queue α :=
  { q with entries := rest ++ q.entries }

/-- Closes the queue and takes out what it still holds. -/
def close (q : Queue α) : Queue α × List α :=
  (⟨[], true⟩, q.entries)

/-! ## Laws -/

/-- A queue accepts an entry, at the back, exactly if it is open. -/
theorem push?_eq_some_iff {q q' : Queue α} {a : α} :
    q.push? a = some q' ↔ q.closed = false ∧ q' = ⟨q.entries ++ [a], false⟩ := by
  cases h : q.closed <;> simp [push?, h, eq_comm]

/-- A queue refuses an entry exactly if it is closed. -/
theorem push?_eq_none_iff {q : Queue α} {a : α} : q.push? a = none ↔ q.closed = true := by
  cases h : q.closed <;> simp [push?, h]

@[simp] theorem putBack_takeBatch (q : Queue α) : q.takeBatch.1.putBack q.takeBatch.2 = q := by
  simp [takeBatch, putBack]

@[simp] theorem closed_takeBatch (q : Queue α) : q.takeBatch.1.closed = q.closed :=
  rfl

@[simp] theorem closed_putBack (q : Queue α) (rest : List α) :
    (q.putBack rest).closed = q.closed :=
  rfl

@[simp] theorem push?_close (q : Queue α) (a : α) : q.close.1.push? a = none :=
  rfl

end Queue

end RunLoop
