import MetricRelay.Fault

namespace MetricRelay

-- A value that several contributions complete, and that is handed over once: when the last
-- contribution is in, or a fault in its place as soon as one of them fails.
structure Join (α : Type) where
  -- contributions still expected
  remaining : Int64
  -- the value so far, until it is handed over
  value : Option α
  -- whether somebody still waits for it
  waiting : Bool

namespace Join

variable {α : Type}

-- What is handed over.
abbrev Delivery (α : Type) := Except Fault α

-- A join of `outstanding` contributions. Without any, it is for `close` to hand the value over.
def expecting (outstanding : UInt64) (value : α) : Join α :=
  ⟨outstanding.toInt64, some value, true⟩

def isDelivered (j : Join α) : Bool :=
  !j.waiting

-- Hands over the fault, or else the value, to whom still waits.
def deliver (fault : Option Fault) (j : Join α) : Option (Delivery α) × Join α :=
  if j.waiting then
    let outcome := match fault, j.value with
      | some f, _ => .error f
      | none, some v => .ok v
      | none, none => .error (.sampling "join value missing at delivery")
    (some outcome, { j with value := none, waiting := false })
  else (none, j)

-- Makes one contribution and counts it down; the last one hands the value over. Once the value
-- is gone nothing is counted.
def complete (contribute : α → α) (j : Join α) : Option (Delivery α) × Join α :=
  match j.value with
  | none => (none, j)
  | some v =>
    let j' := { j with value := some (contribute v), remaining := j.remaining - 1 }
    if j.remaining ≤ 1 then j'.deliver none else (none, j')

-- Gives up: the fault is handed over at once.
def fail (f : Fault) (j : Join α) : Option (Delivery α) × Join α :=
  j.deliver (some f)

-- Hands the value over if nothing more is expected.
def close (j : Join α) : Option (Delivery α) × Join α :=
  if j.remaining ≤ 0 then j.deliver none else (none, j)

end Join

end MetricRelay
