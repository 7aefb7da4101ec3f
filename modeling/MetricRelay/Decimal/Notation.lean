import MetricRelay.Decimal.Exact

namespace MetricRelay.Decimal

def isAllDigits (cs : List Char) : Bool :=
  cs.all Numeral.isDigit

-- The digits of an exponent behind its letter, and whether it is negative.
def exponentDigits? (cs : List Char) : Option (Bool × List Char) :=
  let (negative, ds) := match cs with
    | '-' :: rest => (true, rest)
    | '+' :: rest => (false, rest)
    | _ => (false, cs)
  if ds.isEmpty || !isAllDigits ds then none else some (negative, ds)

-- A number in digits: a point may stand anywhere among them, and an exponent behind them.
def unsigned? (cs : List Char) : Option Float :=
  let whole := cs.takeWhile Numeral.isDigit
  let rest := cs.dropWhile Numeral.isDigit
  let (fraction, rest) := match rest with
    | '.' :: rest => (rest.takeWhile Numeral.isDigit, rest.dropWhile Numeral.isDigit)
    | _ => ([], rest)
  if whole.isEmpty && fraction.isEmpty then none
  else match rest with
    | [] => some (fromDigits whole fraction false [])
    | c :: rest =>
      if c = 'e' ∨ c = 'E' then
        (exponentDigits? rest).map fun e => fromDigits whole fraction e.1 e.2
      else none

-- The magnitude that a word stands for, in any case.
def word? (cs : List Char) : Option Float :=
  let w := String.ofList (cs.map Char.toLower)
  if w = "inf" ∨ w = "infinity" then some (Float.ofBits 0x7FF0000000000000)
  else if w = "nan" then some (Float.ofBits 0x7FF8000000000000)
  else none

-- The double nearest to a written number, which may have a sign.
def read? (cs : List Char) : Option Float :=
  match cs with
  | '-' :: rest => ((word? rest).or (unsigned? rest)).map fun x => -x
  | '+' :: rest => (word? rest).or (unsigned? rest)
  | _ => (word? cs).or (unsigned? cs)

end MetricRelay.Decimal
