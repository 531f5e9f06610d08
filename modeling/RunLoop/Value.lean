/-!
# Data that programs pass around

A `Value` is a tree of nulls, booleans, whole numbers, texts, lists and records. Results of tasks
are values, and so are the scripts that drive a loop and the logs they leave.

* `Value.field?` looks a key up in a record.
* `Value.substitute` writes a number wherever a text mentions a variable.
-/

namespace RunLoop

/-- A tree of plain data. -/
inductive Value where
  | null
  | bool (flag : Bool)
  | num (n : Int)
  | str (text : String)
  | arr (items : List Value)
  | obj (fields : List (String × Value))
  deriving Inhabited

namespace Value

/-! ## Reading -/

/-- The value stored under `key`, when `v` is a record that has it. -/
def field? (v : Value) (key : String) : Option Value :=
  match v with
  | obj fields => fields.lookup key
  | _ => none

/-- The value stored under `key`, or null. -/
def field (v : Value) (key : String) : Value :=
  (v.field? key).getD null

/-- The text that `v` is. -/
def text? : Value → Option String
  | str t => some t
  | _ => none

/-- The text under `key`; a missing one reads as empty. -/
def text (v : Value) (key : String) : String :=
  ((v.field? key).bind text?).getD ""

/-- The list that `v` is; anything else reads as empty. -/
def items : Value → List Value
  | arr vs => vs
  | _ => []

/-- The list under `key`; a missing one reads as empty. -/
def list (v : Value) (key : String) : List Value :=
  (v.field key).items

/-- The count that `v` is, when it is a number that fits into 64 bits without a sign. -/
def count? : Value → Option Nat
  | num (Int.ofNat n) => if n < UInt64.size then some n else none
  | _ => none

/-- The count under `key`, if there is one. -/
def countAt? (v : Value) (key : String) : Option Nat :=
  (v.field? key).bind count?

/-- The count under `key`; a missing one reads as zero. -/
def count (v : Value) (key : String) : Nat :=
  (v.countAt? key).getD 0

/-- Whether `key` holds the flag true. -/
def flag (v : Value) (key : String) : Bool :=
  match v.field? key with
  | some (bool b) => b
  | _ => false

/-- Whether `v` is a record. -/
def isRecord : Value → Bool
  | obj _ => true
  | _ => false

/-! ## Writing -/

/-- A text, or null for none. -/
def ofText? : Option String → Value
  | some t => str t
  | none => null

/-- A count. -/
def ofNat (n : Nat) : Value :=
  num n

/-! ## Size and variables -/

mutual

/-- How deep the tree is. -/
def depth : Value → Nat
  | arr vs => depthList vs + 1
  | obj fs => depthFields fs + 1
  | _ => 0

/-- The depth of the deepest item. -/
def depthList : List Value → Nat
  | [] => 0
  | v :: vs => max v.depth (depthList vs)

/-- The depth of the deepest field. -/
def depthFields : List (String × Value) → Nat
  | [] => 0
  | (_, v) :: fs => max v.depth (depthFields fs)

end

/-- A text with every mention of `hole` filled with `n`; a text that is nothing but the hole
becomes the number itself. -/
def fill (hole : String) (n : Nat) (t : String) : Value :=
  if t = hole then ofNat n else str ((toString n).intercalate (t.splitOn hole))

mutual

/-- Fills `hole` with `n` in every text of the tree; keys of records are left alone. -/
def substitute (hole : String) (n : Nat) : Value → Value
  | str t => fill hole n t
  | arr vs => arr (substituteList hole n vs)
  | obj fs => obj (substituteFields hole n fs)
  | v => v

/-- Fills `hole` in every item. -/
def substituteList (hole : String) (n : Nat) : List Value → List Value
  | [] => []
  | v :: vs => v.substitute hole n :: substituteList hole n vs

/-- Fills `hole` in every field. -/
def substituteFields (hole : String) (n : Nat) : List (String × Value) → List (String × Value)
  | [] => []
  | (k, v) :: fs => (k, v.substitute hole n) :: substituteFields hole n fs

end

end Value

end RunLoop
