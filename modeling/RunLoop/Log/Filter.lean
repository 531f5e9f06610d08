import RunLoop.Event
import RunLoop.Text.Blank

/-!
# Which events are written out

A filter is a list of directives, each with a target and a level. For an event the directive with
the longest target that begins the event's target decides; without one, nothing is written.

* `readDirective?` reads a directive, `Filter.read` a filter.
* `Filter.allows` applies a filter to an event.
-/

namespace RunLoop.Log

/-- Allows the events of a part of the loop, and of its own parts, up to a level. -/
structure Directive where
  target : String
  level : Level

/-- Directives; of two with the same target the later one counts. -/
abbrev Filter := List Directive

/-- The number that decimal digits write, with or without a plus sign. -/
def readRank? (t : String) : Option Nat :=
  let digits := if "+".isPrefixOf t then t.toList.tail else t.toList
  if digits.isEmpty || !digits.all Char.isDigit then none
  else some (digits.foldl (fun n c => 10 * n + (c.toNat - '0'.toNat)) 0)

/-- The level of a name in any case, or of a rank. -/
def readLevel? (t : String) : Option Level :=
  Level.all.find? (fun l => l.name = t.toLower || readRank? t = some l.rank)

/-- Whether a directive can begin like a text: with a letter or a digit, or one of a few signs. -/
def canBegin (t : String) : Bool :=
  match Text.trimStart t.toList with
  | [] => false
  | c :: _ => c.isAlphanum || ['-', ':', '_', '['].contains c || 0x80 ≤ c.toNat

/-- A directive: a level for everything, a target for all its events, or both. -/
def readDirective? (t : String) : Option Directive :=
  if !canBegin t then none
  else
    match readLevel? t with
    | some l => some ⟨"", l⟩
    | none =>
        match t.splitOn "=" with
        | [target] => some ⟨target, .trace⟩
        | [target, ""] => some ⟨target, .trace⟩
        | [target, level] => (readLevel? level).map (⟨target, ·⟩)
        | _ => none

namespace Filter

/-- The filter of a text; one that says nothing allows errors. -/
def read (t : Option String) : Filter :=
  match ((t.getD "").splitOn ",").filterMap readDirective? with
  | [] => [⟨"", .error⟩]
  | directives => directives

/-- Whether a directive speaks of the events of a target. -/
def covers (d : Directive) (target : String) : Bool :=
  d.target.toList.isPrefixOf target.toList

/-- The later of two directives, unless its target is shorter. -/
def sharper (best : Option Directive) (d : Directive) : Option Directive :=
  match best with
  | some b => if b.target.length ≤ d.target.length then some d else some b
  | none => some d

/-- The directive that decides about the events of a target. -/
def decisive (f : Filter) (target : String) : Option Directive :=
  (f.filter (covers · target)).foldl sharper none

/-- Whether an event is written out. -/
def allows (f : Filter) (e : Event) : Bool :=
  match f.decisive e.target with
  | some d => d.level.allows e.level
  | none => false

end Filter

end RunLoop.Log
