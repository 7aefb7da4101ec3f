namespace MetricRelay.Calendar

-- Every fourth year is a leap year, of the full centuries only every fourth.
def isLeap (year : Int) : Bool :=
  year % 4 = 0 && (year % 100 ≠ 0 || year % 400 = 0)

def monthLengths (year : Int) : List Nat :=
  [31, if isLeap year then 29 else 28, 31, 30, 31, 30, 31, 31, 30, 31, 30, 31]

-- The number of days of a month, which is counted from one.
def monthLength (year : Int) (month : Nat) : Nat :=
  (monthLengths year)[month - 1]?.getD 0

-- A day of the calendar, which has no gap and reaches back before its introduction.
structure Date where
  year : Int
  month : Nat
  day : Nat
deriving DecidableEq

def Date.Exists (d : Date) : Prop :=
  1 ≤ d.month ∧ d.month ≤ 12 ∧ 1 ≤ d.day ∧ d.day ≤ monthLength d.year d.month

instance (d : Date) : Decidable d.Exists :=
  inferInstanceAs (Decidable (_ ∧ _ ∧ _ ∧ _))

-- Days from the first day of the year zero to the first day of the given year.
def daysBeforeYear (year : Int) : Int :=
  365 * year + (year + 3) / 4 - (year + 99) / 100 + (year + 399) / 400

-- Days from the first day of the year zero to the first of January 1970.
def daysBeforeEpoch : Int := 719528

-- The day's distance from the first of January 1970.
def Date.number (d : Date) : Int :=
  let before : Nat := ((monthLengths d.year).take (d.month - 1)).foldr (· + ·) 0
  daysBeforeYear d.year + before + d.day - 1 - daysBeforeEpoch

-- The year of a day, given as the distance from the first day of the year zero. The average
-- length of a year leads to the right one or to a neighbour.
def yearOf (days : Int) : Int :=
  let y := 400 * days / 146097
  if daysBeforeYear (y + 1) ≤ days then y + 1
  else if daysBeforeYear y ≤ days then y
  else y - 1

-- The month, counted from `month`, and the day that lie `days` after the first of that month;
-- the lengths are those of the months from there on.
def monthAndDay (month days : Nat) : List Nat → Nat × Nat
  | [] => (month, days + 1)
  | n :: rest => if days < n then (month, days + 1) else monthAndDay (month + 1) (days - n) rest

-- The day at a distance from the first of January 1970.
def Date.ofNumber (n : Int) : Date :=
  let days := n + daysBeforeEpoch
  let year := yearOf days
  let (month, day) := monthAndDay 1 (days - daysBeforeYear year).toNat (monthLengths year)
  ⟨year, month, day⟩

end MetricRelay.Calendar
