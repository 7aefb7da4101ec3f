import MetricRelay.Text.Numeral

namespace MetricRelay.Decimal

-- The double nearest to `m * 10 ^ e`. Powers that no double reaches are not computed.
def nearest (m : Nat) (e : Int) : Float :=
  let size := (Numeral.decimal m).length
  if m = 0 then 0
  else if (size : Int) + e < -400 then 0
  else if 400 < (size : Int) + e then Float.ofBits 0x7FF0000000000000
  else Float.ofScientific m (e < 0) e.natAbs

-- The double nearest to a number given by its digits before and after the point and the digits of
-- its exponent.
def fromDigits (whole fraction : List Char) (negativeExponent : Bool) (exponent : List Char) :
    Float :=
  let m := (Numeral.continue? 10 0 (whole ++ fraction)).getD 0
  let e : Int := (Numeral.continue? 10 0 exponent).getD 0
  nearest m ((if negativeExponent then -e else e) - fraction.length)

end MetricRelay.Decimal
