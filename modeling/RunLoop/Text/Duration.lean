/-!
# Lengths of time

A length of time is counted in microseconds and shown in the largest of seconds, milliseconds and
microseconds that it reaches, with a decimal fraction that has no trailing zeros.

* `Duration.render` writes a length of time.
-/

namespace RunLoop.Text

/-- A length of time. -/
structure Duration where
  micros : Nat
  deriving DecidableEq, Inhabited

namespace Duration

/-- The length of `n` milliseconds. -/
def ofMillis (n : Nat) : Duration :=
  ⟨1000 * n⟩

/-- `digits` with `width` places, zeros put in front. -/
def pad (width : Nat) (digits : List Char) : List Char :=
  List.replicate (width - digits.length) '0' ++ digits

/-- The fraction `part / 10 ^ places` after the point, and nothing at all for zero. -/
def fraction (places part : Nat) : List Char :=
  if part = 0 then []
  else
    let digits := pad places (Nat.toDigits 10 part)
    '.' :: (digits.reverse.dropWhile (· = '0')).reverse

/-- `micros` counted in units of `10 ^ places` microseconds. -/
def inUnit (places : Nat) (micros : Nat) : String :=
  let unit := Nat.pow 10 places
  String.ofList (Nat.toDigits 10 (micros / unit) ++ fraction places (micros % unit))

/-- The length in the largest unit of which there is at least one. -/
def render (d : Duration) : String :=
  if 1000000 ≤ d.micros then inUnit 6 d.micros ++ "s"
  else if 1000 ≤ d.micros then inUnit 3 d.micros ++ "ms"
  else inUnit 0 d.micros ++ "µs"

end Duration

end RunLoop.Text
