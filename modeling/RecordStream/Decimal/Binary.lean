import RecordStream.Decimal.Shortest
import RecordStream.Word

/-!
# Decimal text of binary floats

A float is written with the fewest digits that read back to it in its own width,
of those the nearest.  What is left to choose is the layout of the digits, and
that is a `Style`: `plain` writes every number positionally, `exact` marks
whole numbers by `.0` and goes over to an exponent from `10 ^ 16` on and below
`10 ^ (-4)`.
-/

namespace RecordStream.Decimal

/-- How a bit pattern is divided: one sign bit, then exponent, then fraction. -/
structure Format where
  exponentBits : Nat
  fractionBits : Nat

/-- What a bit pattern stands for, its sign apart; a finite magnitude is
`significand * 2 ^ exponent`. -/
inductive Magnitude
  | notNumber
  | infinite
  | finite (significand : Nat) (exponent : Int)
  deriving DecidableEq

namespace Format

/-- The exponent of the smallest numbers. -/
def leastExponent (f : Format) : Int :=
  2 - 2 ^ (f.exponentBits - 1) - f.fractionBits

/-- Whether the sign bit is set. -/
def negative (f : Format) (bits : Nat) : Bool :=
  bits / 2 ^ (f.exponentBits + f.fractionBits) % 2 = 1

def magnitude (f : Format) (bits : Nat) : Magnitude :=
  let fraction := bits % 2 ^ f.fractionBits
  let exponent := bits / 2 ^ f.fractionBits % 2 ^ f.exponentBits
  if exponent = 2 ^ f.exponentBits - 1 then
    if fraction = 0 then .infinite else .notNumber
  else if exponent = 0 then .finite fraction f.leastExponent
  else .finite (2 ^ f.fractionBits + fraction) (f.leastExponent + (exponent - 1))

/-- The numbers that round to `significand * 2 ^ exponent`: half a step to either
side, ends included for an even significand.  Below a power of two the steps are
half as wide. -/
def span (f : Format) (significand : Nat) (exponent : Int) : Span :=
  let scale := 2 ^ exponent.toNat
  let lower := if significand = 2 ^ f.fractionBits then 1 else 2
  { low := (4 * significand - lower) * scale
    value := 4 * significand * scale
    high := (4 * significand + 2) * scale
    den := 4 * 2 ^ (-exponent).toNat
    closed := significand % 2 = 0 }

/-- The shortest decimal of a finite magnitude, as factor and exponent. -/
def shortest (f : Format) (significand : Nat) (exponent : Int) : Nat × Int :=
  if significand = 0 then (0, 0)
  else ((f.span significand exponent).shortest? 310 660).getD (0, 0)

end Format

/-- How digits are laid out. -/
structure Style where
  /-- Whether a number `0.d₁d₂… * 10 ^ k` is written without an exponent. -/
  positional : Int → Bool
  /-- Whether a whole number without an exponent ends in `.0`. -/
  markWhole : Bool

namespace Style

def plain : Style where
  positional _ := true
  markWhole := false

def exact : Style where
  positional k := -4 < k && k ≤ 16
  markWhole := true

/-- Digits with the decimal point behind the first `k`, zeros filled in. -/
def positionalText (s : Style) (ds : List Char) (k : Int) : List Char :=
  if k ≤ 0 then '0' :: '.' :: (List.replicate (-k).toNat '0' ++ ds)
  else if ds.length ≤ k.toNat then
    ds ++ List.replicate (k.toNat - ds.length) '0' ++ (if s.markWhole then ['.', '0'] else [])
  else ds.take k.toNat ++ '.' :: ds.drop k.toNat

/-- Digits with the decimal point behind the first, and the exponent `k - 1`. -/
def exponentText (ds : List Char) (k : Int) : List Char :=
  let fraction := match ds.drop 1 with
    | [] => []
    | rest => '.' :: rest
  ds.take 1 ++ fraction ++ 'e' :: (toString (k - 1)).toList

/-- The text of `d * 10 ^ e`. -/
def decimal (s : Style) (d : Nat) (e : Int) : List Char :=
  let ds := Nat.toDigits 10 d
  let k := ds.length + e
  if s.positional k then s.positionalText ds k else exponentText ds k

/-- The text of the number with the given bit pattern; a NaN shows no sign. -/
def text (s : Style) (f : Format) (bits : Nat) : String :=
  let unsigned := match f.magnitude bits with
    | .notNumber => "NaN".toList
    | .infinite => "inf".toList
    | .finite m q => let (d, e) := f.shortest m q; s.decimal d e
  match f.magnitude bits, f.negative bits with
  | .notNumber, _ => String.ofList unsigned
  | _, true => String.ofList ('-' :: unsigned)
  | _, false => String.ofList unsigned

end Style

end RecordStream.Decimal

namespace RecordStream

def Binary32.format : Decimal.Format := ⟨8, 23⟩

def Binary64.format : Decimal.Format := ⟨11, 52⟩

/-- The text in a style. -/
def Binary32.text (s : Decimal.Style) (x : Binary32) : String :=
  s.text Binary32.format x.bits.toNat

/-- The text in a style. -/
def Binary64.text (s : Decimal.Style) (x : Binary64) : String :=
  s.text Binary64.format x.bits.toNat

end RecordStream
