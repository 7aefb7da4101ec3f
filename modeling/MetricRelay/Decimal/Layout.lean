import MetricRelay.Decimal.Shortest
import MetricRelay.Text.Numeral

namespace MetricRelay.Decimal

-- Positional notation is used while the exponent of the leading digit lies between these.
def leastPlain : Int := -5

def greatestPlain : Int := 15

-- The text of a decimal other than zero. Positional notation has a digit on either side of the
-- point; the other notation has one digit before the point and a signed exponent.
def Digits.layout (d : Digits) : List Char :=
  let ds := Numeral.decimal d.digits
  let lead := d.power + ds.length - 1
  if leastPlain ≤ lead ∧ lead ≤ greatestPlain then
    if 0 ≤ d.power then ds ++ List.replicate d.power.toNat '0' ++ ['.', '0']
    else if 0 ≤ lead then ds.take (lead.toNat + 1) ++ ['.'] ++ ds.drop (lead.toNat + 1)
    else ['0', '.'] ++ List.replicate (-lead - 1).toNat '0' ++ ds
  else
    let mantissa := match ds with
      | c :: rest => if rest = [] then [c] else c :: '.' :: rest
      | [] => []
    let sign := if 0 ≤ lead then '+' else '-'
    mantissa ++ 'e' :: sign :: Numeral.decimal lead.natAbs

-- The text of a finite double: the fewest digits that read back as it.
def write (x : Float) : List Char :=
  let bits := x.toBits
  let sign := if bits >>> 63 = 1 then ['-'] else []
  let b := Binary.ofBits bits
  sign ++ if b.significand = 0 then ['0', '.', '0'] else b.shortest.layout

end MetricRelay.Decimal
