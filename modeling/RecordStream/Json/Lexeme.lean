import RecordStream.Decimal.Rounding
import RecordStream.Fault

/-!
# JSON lexemes

The parts of a JSON text that have no parts themselves: blanks, fixed words,
strings and numbers.  A reader takes a lexeme off the front of the text and gives
what it stands for, or the first flaw from left to right.  A lexeme that the end
of the text cuts short is `truncated`, any other that is none is `malformed`.
-/

namespace RecordStream.Json

/-- Takes a value off the characters of a text. -/
abbrev Reader := StateT (List Char) (Except JsonFlaw)

def isBlank (c : Char) : Bool :=
  c = ' ' || c = '\t' || c = '\n' || c = '\r'

def dropBlank (cs : List Char) : List Char :=
  cs.dropWhile isBlank

/-- Takes off the next character that is no blank. -/
def next : Reader Char := fun cs =>
  match dropBlank cs with
  | [] => .error .truncated
  | c :: cs => .ok (c, cs)

/-- Takes off the given characters. -/
def expect : List Char → Reader Unit
  | [], cs => .ok ((), cs)
  | _ :: _, [] => .error .truncated
  | e :: es, c :: cs => if c = e then expect es cs else .error .malformed

/-! ## Strings -/

/-- A part of a string: a character, written as it is or by a short escape, or a
16-bit unit given by its number. -/
inductive Piece
  | char (c : Char)
  | unit (n : Nat)
  deriving DecidableEq

/-- The number that a hexadecimal digit of either case stands for. -/
def hexValue? (c : Char) : Option Nat :=
  if '0' ≤ c ∧ c ≤ '9' then some (c.toNat - '0'.toNat)
  else if 'a' ≤ c ∧ c ≤ 'f' then some (c.toNat - 'a'.toNat + 10)
  else if 'A' ≤ c ∧ c ≤ 'F' then some (c.toNat - 'A'.toNat + 10)
  else none

/-- The number with four hexadecimal digits. -/
def unit? (a b c d : Char) : Option Nat :=
  [a, b, c, d].foldlM (fun n c => (hexValue? c).map (n * 16 + ·)) 0

/-- What a character stands for behind a backslash. -/
def shortEscape? : Char → Option Char
  | '"' => some '"'
  | '\\' => some '\\'
  | '/' => some '/'
  | 'b' => some '\x08'
  | 'f' => some '\x0c'
  | 'n' => some '\n'
  | 'r' => some '\r'
  | 't' => some '\t'
  | _ => none

/-- The number of bytes that characters take in UTF-8. -/
def byteLength (cs : List Char) : Nat :=
  cs.foldl (fun size c => size + c.utf8Size) 0

/-- The pieces of a string whose opening quote has been read, and what follows the
closing quote.  If there is none, the pieces are those in front of the flaw.  An
escape by number counts as cut short if the text has fewer than four bytes left. -/
def pieces : List Char → List Piece × Except JsonFlaw (List Char)
  | [] => ([], .error .truncated)
  | '"' :: cs => ([], .ok cs)
  | ['\\'] => ([], .error .truncated)
  | '\\' :: 'u' :: a :: b :: c :: d :: cs =>
    match unit? a b c d with
    | some n => let (ps, e) := pieces cs; (.unit n :: ps, e)
    | none => ([], .error .malformed)
  | '\\' :: 'u' :: cs =>
    ([], .error (if byteLength cs < 4 then .truncated else .malformed))
  | '\\' :: c :: cs =>
    match shortEscape? c with
    | some c => let (ps, e) := pieces cs; (.char c :: ps, e)
    | none => ([], .error .malformed)
  | c :: cs =>
    if c < ' ' then ([], .error .malformed)
    else let (ps, e) := pieces cs; (.char c :: ps, e)

def isHighSurrogate (n : Nat) : Bool := 0xD800 ≤ n && n < 0xDC00

def isLowSurrogate (n : Nat) : Bool := 0xDC00 ≤ n && n < 0xE000

/-- The character of a surrogate pair. -/
def pairChar (high low : Nat) : Char :=
  .ofNat (0x10000 + (high - 0xD800) * 0x400 + (low - 0xDC00))

/-- The characters of some pieces, in which surrogates have to come in pairs.  A high
surrogate at the end leaves it to what follows whether the text was cut short. -/
def joinPieces (follow : Except JsonFlaw (List Char)) :
    List Piece → Except JsonFlaw (List Char × List Char)
  | [] => follow.map ([], ·)
  | .char c :: ps => (joinPieces follow ps).map fun (cs, rest) => (c :: cs, rest)
  | .unit high :: .unit low :: ps =>
    if isHighSurrogate high && isLowSurrogate low then
      (joinPieces follow ps).map fun (cs, rest) => (pairChar high low :: cs, rest)
    else if isHighSurrogate high || isLowSurrogate high then .error .malformed
    else (joinPieces follow (.unit low :: ps)).map fun (cs, rest) => (.ofNat high :: cs, rest)
  | .unit n :: ps =>
    if isHighSurrogate n && ps.isEmpty then
      match follow with
      | .ok _ => .error .malformed
      | .error flaw => .error flaw
    else if isHighSurrogate n || isLowSurrogate n then .error .malformed
    else (joinPieces follow ps).map fun (cs, rest) => (.ofNat n :: cs, rest)

/-- The text of a string whose opening quote has been read. -/
def string : Reader (List Char) := fun cs =>
  let (ps, follow) := pieces cs
  joinPieces follow ps

/-- Skips a string whose opening quote has been read; its surrogates need not pair. -/
def skipString : Reader Unit := fun cs =>
  (pieces cs).2.map ((), ·)

/-! ## Numbers -/

/-- A number without sign, as it is written. -/
structure Number where
  whole : List Char
  /-- The digits behind the point, none if there is no point. -/
  fraction : List Char
  exponent? : Option Int
  deriving DecidableEq

def isDigit (c : Char) : Bool := '0' ≤ c && c ≤ '9'

def digitsValue (cs : List Char) : Nat :=
  Nat.ofDigitChars 10 cs 0

/-- The value of some digits, or the bound if that is smaller. -/
def digitsValueUpTo (bound : Nat) (cs : List Char) : Nat :=
  cs.foldl (fun n c => min bound (n * 10 + (c.toNat - '0'.toNat))) 0

/-- At least one digit; `short` is the flaw if the text ends before it. -/
def digits (short : JsonFlaw) : Reader (List Char) := fun cs =>
  match cs.takeWhile isDigit, cs with
  | [], [] => .error short
  | [], _ => .error .malformed
  | ds, cs => .ok (ds, cs.dropWhile isDigit)

/-- The digits in front of point and exponent, which start with a zero only if that
is all. -/
def wholePart (short : JsonFlaw) : Reader (List Char) := do
  match ← digits short with
  | '0' :: _ :: _ => throw .malformed
  | ds => return ds

def fractionPart (short : JsonFlaw) : Reader (List Char)
  | '.' :: cs => digits short cs
  | cs => .ok ([], cs)

/-- Takes off the sign of an exponent, which is negative after a minus. -/
def exponentSign : Reader Bool
  | '-' :: cs => .ok (true, cs)
  | '+' :: cs => .ok (false, cs)
  | cs => .ok (false, cs)

/-- Exponents beyond this one count as this one: no text has so many digits that they
would make up for it. -/
def maxExponent : Nat := 2147483648

/-- The exponent behind its letter. -/
def exponentValue (short : JsonFlaw) : Reader Int := do
  let negative ← exponentSign
  let n := digitsValueUpTo maxExponent (← digits short)
  return if negative then -n else n

def exponentPart (short : JsonFlaw) : Reader (Option Int)
  | 'e' :: cs => (some <$> exponentValue short) cs
  | 'E' :: cs => (some <$> exponentValue short) cs
  | cs => .ok (none, cs)

/-- A number without sign; `short` is the flaw of one that the text cuts short. -/
def number (short : JsonFlaw) : Reader Number := do
  let whole ← wholePart short
  let fraction ← fractionPart short
  let exponent? ← exponentPart short
  return { whole, fraction, exponent? }

namespace Number

/-- The number of digits of the largest number of 64 bits. -/
def maxWordDigits : Nat := 20

/-- The value of a number without point and exponent that has no more digits than a
number of 64 bits. -/
def natural? (n : Number) : Option Nat :=
  match n.fraction, n.exponent? with
  | [], none => if n.whole.length ≤ maxWordDigits then some (digitsValue n.whole) else none
  | _, _ => none

/-- Continues a number by digits as long as it fits in 64 bits, and counts the digits
that are left. -/
def accumulate : Nat → List Char → Nat × Nat
  | n, [] => (n, 0)
  | n, c :: cs =>
    let m := n * 10 + (c.toNat - '0'.toNat)
    if m < UInt64.size then accumulate m cs else (n, cs.length + 1)

/-- Whether the number is too large for a double.  Only as many digits count as fit
in 64 bits. -/
def overflows (n : Number) : Bool :=
  let (significand, left) := accumulate 0 n.whole
  let (significand, unused) := accumulate significand n.fraction
  Decimal.doubleOverflows significand
    (left + unused - n.fraction.length + n.exponent?.getD 0)

end Number

end RecordStream.Json
