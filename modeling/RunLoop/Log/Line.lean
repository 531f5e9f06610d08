import RunLoop.Log.Filter
import RunLoop.Text.Blank

/-!
# Events as lines of text

* `Log.line` writes an event as one line.
-/

namespace RunLoop.Log

/-- The text of a field. -/
def fieldText (f : Event.Field) : String :=
  f.name ++ "=" ++ if f.quoted then Text.Quoted.quote f.text else f.text

/-- An event as a line: its level, where it comes from, what it says and its fields, without white
space around it. -/
def line (e : Event) : String :=
  Text.trim (" ".intercalate
    (e.level.name.toUpper :: (e.target ++ ":") :: e.message :: e.fields.map fieldText))

end RunLoop.Log
