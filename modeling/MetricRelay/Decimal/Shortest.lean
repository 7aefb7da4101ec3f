namespace MetricRelay.Decimal

-- A finite double without its sign: `significand * 2 ^ power`. Below a power of two the gap to the
-- next smaller double is half the gap to the next larger one.
structure Binary where
  significand : Nat
  power : Int
  narrowBelow : Bool

def Binary.ofBits (bits : UInt64) : Binary :=
  let exponent := ((bits >>> 52) &&& 0x7FF).toNat
  let fraction := (bits &&& 0xFFFFFFFFFFFFF).toNat
  if exponent = 0 then ⟨fraction, -1074, false⟩
  else ⟨Nat.pow 2 52 + fraction, (exponent : Int) - 1075, fraction = 0 && exponent > 1⟩

-- The decimal `digits * 10 ^ power`.
structure Digits where
  digits : Nat
  power : Int
deriving DecidableEq

-- Compares `a * 10 ^ i` with `n * 2 ^ j`.
def compareScaled (a : Nat) (i : Int) (n : Nat) (j : Int) : Ordering :=
  compare (a * Nat.pow 10 i.toNat * Nat.pow 2 (-j).toNat)
    (n * Nat.pow 2 j.toNat * Nat.pow 10 (-i).toNat)

-- Whether the decimal lies among the reals that round to `x`: between the midpoints to its
-- neighbours, the midpoints included when the significand is even.
def Binary.readsBack (x : Binary) (d : Digits) : Bool :=
  let low := if x.narrowBelow then 4 * x.significand - 1 else 4 * x.significand - 2
  let high := 4 * x.significand + 2
  let closed := x.significand % 2 = 0
  let below := compareScaled d.digits d.power low (x.power - 2)
  let above := compareScaled d.digits d.power high (x.power - 2)
  (below == .gt || (closed && below == .eq)) && (above == .lt || (closed && above == .eq))

-- The whole part of `x / 10 ^ p`.
def Binary.floorAt (x : Binary) (p : Int) : Nat :=
  (x.significand * Nat.pow 2 x.power.toNat * Nat.pow 10 (-p).toNat) /
    (Nat.pow 10 p.toNat * Nat.pow 2 (-x.power).toNat)

-- Of the two neighbours of `x` on the grid of step `10 ^ p`, the one that reads back as `x`. If
-- both do, the nearer one, and at the same distance the even one.
def Binary.onGrid? (x : Binary) (p : Int) : Option Digits :=
  let n := x.floorAt p
  match x.readsBack ⟨n, p⟩, x.readsBack ⟨n + 1, p⟩ with
  | true, false => some ⟨n, p⟩
  | false, true => some ⟨n + 1, p⟩
  | false, false => none
  | true, true =>
    match compareScaled (2 * n + 1) p (2 * x.significand) x.power with
    | .lt => some ⟨n + 1, p⟩
    | .gt => some ⟨n, p⟩
    | .eq => some ⟨if n % 2 = 0 then n else n + 1, p⟩

-- A power of ten that exceeds `x`, at most a few too large: log 2 is below 0.30103.
def Binary.scale (x : Binary) : Int :=
  ((x.significand.log2 : Int) + 1 + x.power) * 30103 / 100000 + 1

-- The least power of ten at or below `k` that still exceeds `x`, looked for in `steps` steps.
def Binary.tighten (x : Binary) : Nat → Int → Int
  | 0, k => k
  | steps + 1, k =>
    if compareScaled 1 (k - 1) x.significand x.power == .gt then x.tighten steps (k - 1) else k

-- The digits without zeros at the end; `fuel` bounds how many may go.
def Digits.strip : Nat → Digits → Digits
  | 0, d => d
  | fuel + 1, d =>
    if d.digits % 10 = 0 then Digits.strip fuel ⟨d.digits / 10, d.power + 1⟩ else d

-- The value of `x` to the last digit.
def Binary.exact (x : Binary) : Digits :=
  if 0 ≤ x.power then ⟨x.significand * Nat.pow 2 x.power.toNat, 0⟩
  else ⟨x.significand * Nat.pow 5 (-x.power).toNat, x.power⟩

-- The shortest decimal that reads back as `x`, for a `x` other than zero: of ever finer grids the
-- first with a point that does. Seventeen digits tell all doubles apart.
def Binary.shortest (x : Binary) : Digits :=
  let k := x.tighten 4 x.scale
  let found := (List.range 17).findSome? fun (n : Nat) => x.onGrid? (k - n - 1)
  Digits.strip 20 (found.getD x.exact)

end MetricRelay.Decimal
