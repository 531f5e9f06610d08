import RunLoop.Slab
import RunLoop.Value

/-!
# Trials of a slab

A trial performs operations on a slab one after another and notes what each of them answers and how
many values are stored afterwards.

* `Slab.Op` is an operation, `Slab.Op.perform` performs it.
* `Slab.trial` performs a list of operations, `Slab.after` is the slab that they leave.
* `Slab.Op.read?` and `Slab.Answer.toValue` are the encodings of operations and answers as plain
  data.
-/

namespace RunLoop.Slab

variable {α : Type}

/-- An operation on a slab. -/
inductive Op (α : Type) where
  | insert (v : α)
  | remove (i : Nat)
  | get (i : Nat)
  /-- Replace the value under an index. -/
  | set (i : Nat) (v : α)
  | contains (i : Nat)
  | vacant
  | drain
  /-- Give the slab up and go on with a new one that has `n` free indices. -/
  | renew (n : Nat)

/-- What an operation answers. -/
inductive Answer (α : Type) where
  /-- An index. -/
  | index (i : Nat)
  /-- A value that may be missing. -/
  | found (v : Option α)
  | flag (b : Bool)
  /-- The values that were taken out, or dropped with the slab. -/
  | values (vs : List α)

/-- Performs an operation. -/
def Op.perform (s : Slab α) : Op α → Slab α × Answer α
  | insert v =>
      let (s, i) := s.insert v
      (s, .index i)
  | remove i =>
      let (s, v) := s.remove i
      (s, .found v)
  | get i => (s, .found (s.get? i))
  | set i v => (s.modify i (fun _ => v), .found (s.get? i))
  | contains i => (s, .flag (s.contains i))
  | vacant => (s, .index s.vacant)
  | drain =>
      let (s, vs) := s.drain
      (s, .values vs)
  | renew n => (new n, .values s.toList)

/-- Performs operations in order; each answer comes with the number of values stored after it. -/
def trial (s : Slab α) : List (Op α) → List (Answer α × Nat)
  | [] => []
  | op :: rest =>
      let (s, answer) := op.perform s
      (answer, s.size) :: s.trial rest

/-- The slab that operations leave. -/
def after (s : Slab α) (ops : List (Op α)) : Slab α :=
  ops.foldl (fun s op => (op.perform s).1) s

/-! ## Plain data -/

/-- The operation that a list with its name and its arguments describes. -/
def Op.read? : Value → Option (Op Value)
  | .arr [.str "insert", v] => some (insert v)
  | .arr [.str "remove", i] => i.count?.map remove
  | .arr [.str "get", i] => i.count?.map get
  | .arr [.str "set", i, v] => i.count?.map (set · v)
  | .arr [.str "contains", i] => i.count?.map contains
  | .arr [.str "vacant"] => some vacant
  | .arr [.str "drain"] => some drain
  | .arr [.str "drop", n] => n.count?.map renew
  | _ => none

/-- An answer as plain data. -/
def Answer.toValue : Answer Value → Value
  | index i => .ofNat i
  | found (some v) => .obj [("some", v)]
  | found none => .null
  | flag b => .bool b
  | values vs => .arr vs

end RunLoop.Slab
