import MetricRelay.Calendar.Civil
import MetricRelay.Decimal.Exact
import MetricRelay.Toml.Text
import MetricRelay.Tree

namespace MetricRelay.Toml

-- Digits of a base at the front with single underscores between them, which are left out; `seen`
-- tells whether the character before was a digit.
def groups (base : Nat) : Bool → List Char → Option (List Char × Rest)
  | true, [] => some ([], [])
  | false, [] => none
  | seen, c :: rest =>
    if (Numeral.digit? base c).isSome then (groups base true rest).map fun r => (c :: r.1, r.2)
    else if c = '_' && seen then groups base false rest
    else if seen then some ([], c :: rest)
    else none

-- Digits without a leading zero, or a zero alone.
def wholeDigits? : List Char → Option (List Char × Rest)
  | '0' :: rest => some (['0'], rest)
  | cs => groups 10 false cs

-- A sign at the front, and whether it is a minus.
def sign : List Char → Bool × Rest
  | '-' :: rest => (true, rest)
  | '+' :: rest => (false, rest)
  | cs => (false, cs)

def inInt64 (n : Int) : Option Tree :=
  if Int64.minValue.toInt ≤ n ∧ n ≤ Int64.maxValue.toInt then some (.integer n) else none

def based? (base : Nat) (cs : List Char) : Option (Tree × Rest) := do
  let (ds, rest) ← groups base false cs
  some (← inInt64 (← Numeral.read? base ds), rest)

def integer? : List Char → Option (Tree × Rest)
  | '0' :: 'x' :: rest => based? 16 rest
  | '0' :: 'o' :: rest => based? 8 rest
  | '0' :: 'b' :: rest => based? 2 rest
  | cs => do
    let (negative, cs) := sign cs
    let (ds, rest) ← wholeDigits? cs
    let n ← Numeral.read? 10 ds
    some (← inInt64 (if negative then -(n : Int) else n), rest)

-- An exponent: its sign and digits.
def exponent? : List Char → Option ((Bool × List Char) × Rest)
  | 'e' :: cs | 'E' :: cs => do
    let (negative, cs) := sign cs
    let (ds, rest) ← groups 10 false cs
    some ((negative, ds), rest)
  | _ => none

-- A number with a fraction or an exponent. One too large for a double is refused.
def decimal? (cs : List Char) : Option (Tree × Rest) := do
  let (negative, cs) := sign cs
  let (whole, cs) ← wholeDigits? cs
  let ((fraction, (below, power)), rest) ← match cs with
    | '.' :: cs => do
      let (fraction, cs) ← groups 10 false cs
      match cs with
      | 'e' :: _ | 'E' :: _ => (exponent? cs).map fun r => ((fraction, r.1), r.2)
      | _ => some ((fraction, (false, [])), cs)
    | _ => (exponent? cs).map fun r => (([], r.1), r.2)
  let x := Decimal.fromDigits whole fraction below power
  if negative then some (.real (-x), rest)
  else if x.isInf then none
  else some (.real x, rest)

-- An infinity, or what is no number.
def special? (cs : List Char) : Option (Tree × Rest) :=
  let (negative, cs) := sign cs
  let value := fun bits => Tree.real (if negative then -Float.ofBits bits else Float.ofBits bits)
  match cs with
  | 'i' :: 'n' :: 'f' :: rest => some (value 0x7FF0000000000000, rest)
  | 'n' :: 'a' :: 'n' :: rest => some (value 0x7FF8000000000000, rest)
  | _ => none

def real? (cs : List Char) : Option (Tree × Rest) :=
  (decimal? cs).or (special? cs)

-- A number of exactly `width` digits, within bounds.
def fixed? (width low high : Nat) (cs : List Char) : Option (Nat × Rest) := do
  let ds := cs.take width
  if ds.length < width ∨ !ds.all Numeral.isDigit then none
  else
    let n ← Numeral.read? 10 ds
    if low ≤ n ∧ n ≤ high then some (n, cs.drop width) else none

def after? (c : Char) : List Char → Option Rest
  | d :: rest => if d = c then some rest else none
  | [] => none

-- A day that exists.
def day? (cs : List Char) : Option Rest := do
  let (y, cs) ← fixed? 4 0 9999 cs
  let (m, cs) ← fixed? 2 1 12 (← after? '-' cs)
  let (d, cs) ← fixed? 2 1 31 (← after? '-' cs)
  if d ≤ Calendar.monthLength y m then some cs else none

-- A time of day to the second or any fraction of it.
def time? (cs : List Char) : Option Rest := do
  let (_, cs) ← fixed? 2 0 23 cs
  let (_, cs) ← fixed? 2 0 59 (← after? ':' cs)
  let (_, cs) ← fixed? 2 0 60 (← after? ':' cs)
  match cs with
  | '.' :: rest =>
    if (rest.takeWhile Numeral.isDigit).isEmpty then none
    else some (rest.dropWhile Numeral.isDigit)
  | _ => some cs

-- An offset from universal time.
def offset? : List Char → Option Rest
  | 'Z' :: rest | 'z' :: rest => some rest
  | '+' :: cs | '-' :: cs => do
    let (_, cs) ← fixed? 2 0 23 cs
    let (_, cs) ← fixed? 2 0 59 (← after? ':' cs)
    some cs
  | _ => none

-- The text behind a time of day that may follow a day. A blank may introduce it, and then none
-- need follow.
def dayTime? (cs : List Char) : Option Rest :=
  let withOffset := fun cs => (time? cs).map fun r => (offset? r).getD r
  match cs with
  | 'T' :: rest | 't' :: rest => withOffset rest
  | ' ' :: rest => if (fixed? 2 0 99 rest).isSome then withOffset rest else some cs
  | _ => some cs

-- A day with or without a time, or a time. Documents have no use for its value, so it is a table
-- with a single name that no record has.
def date? (cs : List Char) : Option (Tree × Rest) :=
  let behind := match day? cs with
    | some r => dayTime? r
    | none => time? cs
  behind.map fun r => (.table [("date-time", .null)], r)

-- Whether a day or a time is written at the front, rather than a number.
def looksLikeDate (cs : List Char) : Bool :=
  (cs.take 4).all Numeral.isDigit && (cs.drop 4).head? == some '-' ||
    (cs.take 2).all Numeral.isDigit && (cs.drop 2).head? == some ':'

def number? (cs : List Char) : Option (Tree × Rest) :=
  if looksLikeDate cs then date? cs
  else match real? cs with
    | some r => some r
    | none => integer? cs

end MetricRelay.Toml
