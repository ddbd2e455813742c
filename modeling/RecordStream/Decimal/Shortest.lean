/-!
# Shortest decimals

The fewest digits that still stand for a value.  A value comes with the span of
numbers that would be taken for it; on the grid of the multiples of `10 ^ e` only
the two neighbours of the value can lie in the span without a nearer one lying
there too, so a grid is tested by testing those two.  Grids are tried from the
coarsest to finer ones, and the first that meets the span has the fewest digits.
Since a number of a coarse grid lies on every finer one, the result never ends
in a zero.
-/

namespace RecordStream.Decimal

/-- The value `value / den` and the interval from `low / den` to `high / den` of
the numbers that are taken for it, with its ends if `closed`. -/
structure Span where
  low : Nat
  value : Nat
  high : Nat
  den : Nat
  closed : Bool

namespace Span

/-- Whether `d * 10 ^ e` lies in the span. -/
def holds (s : Span) (d : Nat) (e : Int) : Bool :=
  let scale := 10 ^ (-e).toNat
  let x := d * (s.den * 10 ^ e.toNat)
  if s.closed then s.low * scale ≤ x && x ≤ s.high * scale
  else s.low * scale < x && x < s.high * scale

/-- The multiple of `10 ^ e` that stands for the value, given by its factor, if the
span has one.  Of two neighbours in the span the nearer is taken, at a tie the upper. -/
def onGrid? (s : Span) (e : Int) : Option Nat :=
  let unit := s.den * 10 ^ e.toNat
  let x := s.value * 10 ^ (-e).toNat
  let below := x / unit
  match s.holds below e, s.holds (below + 1) e with
  | true, true => some (if 2 * (x % unit) < unit then below else below + 1)
  | true, false => some below
  | false, true => some (below + 1)
  | false, false => none

/-- The shortest decimal in the span, as factor and exponent, among the grids from
`10 ^ top` down to `10 ^ (top - depth)`. -/
def shortest? (s : Span) (top : Int) (depth : Nat) : Option (Nat × Int) :=
  (List.range (depth + 1)).findSome? fun (i : Nat) =>
    (s.onGrid? (top - i)).map (·, top - i)

end Span

end RecordStream.Decimal
