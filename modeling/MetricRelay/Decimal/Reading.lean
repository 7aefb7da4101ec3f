import MetricRelay.Text.Numeral

namespace MetricRelay.Decimal

-- A decimal number as it is written: digits before and after the point, and a power of ten.
structure Literal where
  negative : Bool
  whole : List Char
  fraction : Option (List Char)
  exponent : Option (Bool × List Char)

def Literal.isInteger (l : Literal) : Bool :=
  l.fraction.isNone && l.exponent.isNone

-- The largest significand that fits a machine word.
def most : Nat := UInt64.size - 1

-- Takes digits into a significand as long as it fits, and leaves the others.
def absorb : Nat → List Char → Nat × List Char
  | m, [] => (m, [])
  | m, c :: cs =>
    let d := (Numeral.digit? 10 c).getD 0
    if 10 * m + d ≤ most then absorb (10 * m + d) cs else (m, c :: cs)

-- A power of ten up to the largest finite one.
def powerOfTen (n : Nat) : Float :=
  Float.ofScientific 1 false n

-- Multiplies by a power of ten in at most one rounding per factor of 1e308. A result beyond the
-- largest double has no value.
def scaled (x : Float) (e : Int) : Option Float :=
  if 0 ≤ e then
    if e ≤ 308 then
      let y := x * powerOfTen e.toNat
      if y.isInf then none else some y
    else if x == 0 then some x
    else none
  else if -308 ≤ e then some (x / powerOfTen (-e).toNat)
  else if x == 0 then some x
  else scaled (x / powerOfTen 308) (e + 308)
termination_by (-e).toNat
decreasing_by omega

-- The value of a written exponent, or none if it needs more than 31 bits.
def exponentValue? (l : Literal) : Option Int :=
  match l.exponent with
  | none => some 0
  | some (negative, ds) =>
    match Numeral.continue? 10 0 ds with
    | some n => if n < Nat.pow 2 31 then some (if negative then -(n : Int) else n) else none
    | none => none

-- The significand that is kept, and the power of ten that makes up for the digits dropped from
-- the whole part and for those taken from the fraction.
def Literal.kept (l : Literal) : Nat × Int :=
  let (m, left) := absorb 0 l.whole
  match l.fraction with
  | none => (m, left.length)
  | some ds =>
    let (m', left') := absorb m ds
    (m', (left.length : Int) - ((ds.length : Int) - left'.length))

-- The double that the literal is read as: a significand of one word, scaled by a power of ten.
-- Digits beyond the word are dropped, so the last bit may be off. Numbers too large for a double
-- have no value.
def Literal.real? (l : Literal) : Option Float :=
  let (m, e) := l.kept
  let size :=
    match exponentValue? l, l.exponent with
    | some x, _ => scaled (UInt64.ofNat m).toFloat (e + x)
    | none, some (false, _) => if m = 0 then some 0 else none
    | none, _ => some 0
  size.map fun x => if l.negative then -x else x

end MetricRelay.Decimal
