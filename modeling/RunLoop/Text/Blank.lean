import RunLoop.Text.CharSet

/-!
# White space

The characters that have the property `White_Space`, and texts without them at either end.

* `isBlank` tells whether a character is white space.
* `trim` takes white space off both ends of a text.
-/

namespace RunLoop.Text

/-- The characters with the property `White_Space`. -/
def blanks : CharSet :=
  [⟨0x9, 0xd⟩, ⟨0x20, 0x20⟩, ⟨0x85, 0x85⟩, ⟨0xa0, 0xa0⟩, ⟨0x1680, 0x1680⟩, ⟨0x2000, 0x200a⟩,
    ⟨0x2028, 0x2029⟩, ⟨0x202f, 0x202f⟩, ⟨0x205f, 0x205f⟩, ⟨0x3000, 0x3000⟩]

/-- Whether a character is white space. -/
def isBlank (c : Char) : Bool :=
  blanks.mem c

/-- Characters without the white space in front of them. -/
def trimStart (cs : List Char) : List Char :=
  cs.dropWhile isBlank

/-- Characters without the white space behind them. -/
def trimEnd (cs : List Char) : List Char :=
  (trimStart cs.reverse).reverse

/-- A text without the white space around it. -/
def trim (t : String) : String :=
  String.ofList (trimEnd (trimStart t.toList))

end RunLoop.Text
