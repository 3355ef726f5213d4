/-!
# `ImportClosure.Time.Instant`: points in time to the microsecond

File trees date their files in nanoseconds. An `Instant` counts microseconds since 1970, and
`Instant.ofNanos` finds it in the precision of a binary fraction with 53 significant bits: the
seconds are rounded to such a fraction first, and the microseconds of their fractional part
once more. `nearest` is that rounding, on whole multiples of a fixed power of two.

Both roundings go to the nearest value, and halfway to the even one.
-/

set_option autoImplicit false

namespace ImportClosure

/-- The whole number nearest to the quotient of `n` by a positive `d`; halfway between two,
the even one. -/
def divNearest (n d : Int) : Int :=
  let q := n / d
  let twice := 2 * (n % d)
  if twice < d then q
  else if d < twice then q + 1
  else if q % 2 = 0 then q else q + 1

/-- The nearest whole number with at most 53 significant bits. -/
def nearest (n : Int) : Int :=
  let unit := Int.pow 2 (n.natAbs.log2 + 1 - 53)
  divNearest n unit * unit

/-- A number of microseconds since the beginning of 1970. -/
structure Instant where
  micros : Int
  deriving DecidableEq, Repr

namespace Instant

/-- The instant at which 1970 began. -/
def epoch : Instant := ⟨0⟩

/-- One second, in the units that instants are computed in. -/
def second : Int := Int.pow 2 82

/-- One nanosecond in the same units, to 53 significant bits. -/
def nanosecond : Int := 4835703278458517

/-- The instant at a number of nanoseconds since 1970. -/
def ofNanos (nanos : Int) : Instant :=
  let time := nearest (nanos / 1000000000 * second + nearest (nanos % 1000000000 * nanosecond))
  ⟨time.tdiv second * 1000000 + divNearest (nearest (time.tmod second * 1000000)) second⟩

end Instant

end ImportClosure
