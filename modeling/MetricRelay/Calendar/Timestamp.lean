import MetricRelay.Calendar.Civil
import MetricRelay.Text.Blank
import MetricRelay.Text.Numeral

namespace MetricRelay

open Calendar

-- A moment of universal time: seconds since the first of January 1970 and nanoseconds on top. In
-- the last second of a minute the nanoseconds may go on through one more, a leap second.
structure Timestamp where
  seconds : Int
  nanos : Nat
  nanos_fits : nanos < 1000000000 ∨ nanos < 2000000000 ∧ seconds % 60 = 59
deriving DecidableEq

namespace Timestamp

def make? (seconds : Int) (nanos : Nat) : Option Timestamp :=
  if h : nanos < 1000000000 ∨ nanos < 2000000000 ∧ seconds % 60 = 59 then
    some ⟨seconds, nanos, h⟩
  else none

def epoch : Timestamp :=
  ⟨0, 0, .inl (by decide)⟩

-- Milliseconds since the first of January 1970.
def ofMillis (n : Nat) : Timestamp :=
  ⟨n / 1000, n % 1000 * 1000000, .inl (by omega)⟩

def millis (t : Timestamp) : Int :=
  1000 * t.seconds + t.nanos / 1000000

-- The years that can be told.
def yearFits (year : Int) : Bool :=
  -262143 ≤ year && year ≤ 262142

def secondOfDay (t : Timestamp) : Nat :=
  (t.seconds % 86400).toNat

def date (t : Timestamp) : Date :=
  .ofNumber (t.seconds / 86400)

-- The digits behind the point: none, three, six or nine.
def fraction (nanos : Nat) : List Char :=
  if nanos = 0 then []
  else if nanos % 1000000 = 0 then '.' :: Numeral.padded 10 3 (nanos / 1000000)
  else if nanos % 1000 = 0 then '.' :: Numeral.padded 10 6 (nanos / 1000)
  else '.' :: Numeral.padded 10 9 nanos

-- A year has four digits, and a sign where it has to be told from those of four digits.
def yearText (year : Int) : List Char :=
  let ds := Numeral.padded 10 4 year.natAbs
  if year < 0 then '-' :: ds else if 9999 < year then '+' :: ds else ds

-- The moment as text, with a `Z` for universal time. A leap second is the sixtieth.
def write (t : Timestamp) : List Char :=
  let d := t.date
  let s := t.secondOfDay
  let two := Numeral.padded 10 2
  yearText d.year ++ '-' :: two d.month ++ '-' :: two d.day ++ 'T' :: two (s / 3600) ++
    ':' :: two (s / 60 % 60) ++ ':' :: two (s % 60 + t.nanos / 1000000000) ++
    fraction (t.nanos % 1000000000) ++ ['Z']

abbrev Rest := List Char

def skip : List Char → Rest :=
  List.dropWhile Text.isBlank

-- A number of one up to `width` digits, with blanks before it.
def number? (width : Nat) (cs : List Char) : Option (Nat × Rest) :=
  let cs := skip cs
  let ds := (cs.take width).takeWhile Numeral.isDigit
  (Numeral.read? 10 ds).map fun n => (n, cs.drop ds.length)

-- A year: up to four digits, or any number of them behind a sign.
def year? (cs : List Char) : Option (Int × Rest) :=
  match skip cs with
  | '-' :: rest => (unsigned rest).map fun r => (-(r.1 : Int), r.2)
  | '+' :: rest => (unsigned rest).map fun r => ((r.1 : Int), r.2)
  | rest => (number? 4 rest).map fun r => ((r.1 : Int), r.2)
where
  unsigned (cs : List Char) : Option (Nat × Rest) :=
    (Numeral.read? 10 (cs.takeWhile Numeral.isDigit)).map fun n =>
      (n, cs.dropWhile Numeral.isDigit)

-- The text behind a mark that blanks may precede.
def after? (mark : Char) (cs : List Char) : Option Rest :=
  match skip cs with
  | c :: rest => if c = mark then some rest else none
  | [] => none

def date? (cs : List Char) : Option (Date × Rest) := do
  let (year, cs) ← year? cs
  let (month, cs) ← number? 2 (← after? '-' cs)
  let (day, cs) ← number? 2 (← after? '-' cs)
  let d : Date := ⟨year, month, day⟩
  if d.Exists ∧ yearFits year then some (d, cs) else none

-- Nanoseconds from the digits behind a point; digits beyond the ninth are dropped.
def fraction? : List Char → Option (Nat × Rest)
  | '.' :: cs =>
    let ds := cs.takeWhile Numeral.isDigit
    let kept := ds.take 9
    (Numeral.read? 10 kept).map fun n =>
      (n * Nat.pow 10 (9 - kept.length), cs.dropWhile Numeral.isDigit)
  | cs => some (0, cs)

-- The second of the day and the nanoseconds. A sixtieth second is a leap second.
def time? (cs : List Char) : Option ((Nat × Nat) × Rest) := do
  let (hour, cs) ← number? 2 cs
  let (minute, cs) ← number? 2 (← after? ':' cs)
  let (second, cs) ← number? 2 (← after? ':' cs)
  let (nanos, cs) ← fraction? cs
  if 23 < hour ∨ 59 < minute ∨ 60 < second then none
  else if second = 60 then some ((3600 * hour + 60 * minute + 59, nanos + 1000000000), cs)
  else some ((3600 * hour + 60 * minute + second, nanos), cs)

-- Hours and minutes, as seconds.
def hoursMinutes? : List Char → Option (Nat × Rest)
  | a :: b :: cs => do
    let hours ← Numeral.read? 10 [a, b]
    match cs.dropWhile (fun c => c = ':' || Text.isBlank c) with
    | c :: d :: rest => do
      let minutes ← Numeral.read? 10 [c, d]
      if hours < 24 ∧ minutes < 60 then some (3600 * hours + 60 * minutes, rest) else none
    | _ => none
  | _ => none

-- By how many seconds the clock of the text is ahead of universal time.
def offset? (cs : List Char) : Option (Int × Rest) :=
  match skip cs with
  | 'Z' :: rest | 'z' :: rest => some (0, rest)
  | '+' :: rest => (hoursMinutes? rest).map fun r => ((r.1 : Int), r.2)
  | c :: rest =>
    if c = '-' ∨ c = Char.ofNat 0x2212 then
      (hoursMinutes? rest).map fun r => (-(r.1 : Int), r.2)
    else if (c :: rest.take 2).map Char.toLower = ['u', 't', 'c'] then some (0, rest.drop 2)
    else none
  | [] => none

-- The moment that a text stands for, whose year must fit by universal time too. Blanks may stand
-- around the parts of the text.
def read? (cs : List Char) : Option Timestamp := do
  let (d, cs) ← date? cs
  let cs ← match cs with
    | 'T' :: rest | 't' :: rest | ' ' :: rest => some rest
    | _ => none
  let ((second, nanos), cs) ← time? cs
  let (ahead, cs) ← offset? cs
  let t ← make? (86400 * d.number + second - ahead) nanos
  if skip cs = [] ∧ yearFits t.date.year then some t else none

end Timestamp

end MetricRelay
