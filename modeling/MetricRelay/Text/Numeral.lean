namespace MetricRelay.Numeral

-- The value of an ASCII digit or letter as a digit of a base up to 36; letters count in
-- either case.
def digit? (base : Nat) (c : Char) : Option Nat :=
  let d :=
    if '0' ≤ c ∧ c ≤ '9' then c.toNat - 48
    else if 'a' ≤ c ∧ c ≤ 'z' then c.toNat - 87
    else if 'A' ≤ c ∧ c ≤ 'Z' then c.toNat - 55
    else base
  if d < base then some d else none

def isDigit (c : Char) : Bool :=
  '0' ≤ c && c ≤ '9'

-- The value of digits written after a number with the value `sofar`.
def continue? (base : Nat) : Nat → List Char → Option Nat
  | sofar, [] => some sofar
  | sofar, c :: cs => do continue? base (base * sofar + (← digit? base c)) cs

-- The number that a text of digits alone stands for. The empty text stands for none.
def read? (base : Nat) : List Char → Option Nat
  | [] => none
  | cs => continue? base 0 cs

-- A count of at most `most`, with an optional plus sign.
def count? (base most : Nat) (cs : List Char) : Option Nat := do
  let n ← read? base (match cs with | '+' :: rest => rest | _ => cs)
  if n ≤ most then some n else none

def symbol (d : Nat) : Char :=
  Char.ofNat (if d < 10 then 48 + d else 87 + d)

-- The digits of `n`, least first; `fuel` bounds their number.
def digitsUp (base : Nat) : Nat → Nat → List Nat
  | 0, _ => []
  | fuel + 1, n => if n < base then [n] else n % base :: digitsUp base fuel (n / base)

-- The shortest text that stands for `n`, with lower-case letters.
def write (base n : Nat) : List Char :=
  ((digitsUp base (n + 1) n).reverse).map symbol

def decimal (n : Nat) : List Char :=
  write 10 n

-- The text of `n` filled up with zeros on the left.
def padded (base width n : Nat) : List Char :=
  let ds := write base n
  List.replicate (width - ds.length) '0' ++ ds

end MetricRelay.Numeral
