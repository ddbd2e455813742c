/-!
# Rounding to binary digits

A natural number rounded to its highest binary digits, as floats are.
-/

namespace RecordStream.Decimal

/-- The nearest number with at most `p` binary digits before its final zeros; of two
the one whose last digit is even. -/
def roundToBits (p n : Nat) : Nat :=
  let step := 2 ^ (n.log2 + 1 - p)
  let below := n / step
  let rest := n % step
  if step < 2 * rest ∨ (step = 2 * rest ∧ below % 2 = 1) then (below + 1) * step
  else below * step

/-- Whether `n * 10 ^ e`, computed on doubles from the doubles nearest to both
factors, is infinite.  Powers of ten above the largest double count as infinite. -/
def doubleOverflows (n : Nat) (e : Int) : Bool :=
  n ≠ 0 && 0 ≤ e &&
    (308 < e ||
      1 <<< 1024 ≤ roundToBits 53 (roundToBits 53 n * roundToBits 53 (10 ^ e.toNat)))

end RecordStream.Decimal
