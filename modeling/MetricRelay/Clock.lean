namespace MetricRelay

-- Moments are natural numbers: milliseconds since the clock was set going.

-- A length of time. Fewer than 10^9 nanoseconds come on top of the whole seconds.
structure Span where
  seconds : UInt64
  nanos : UInt32
deriving DecidableEq

namespace Span

def ofMillis (n : Nat) : Span :=
  ⟨UInt64.ofNat (n / 1000), UInt32.ofNat (n % 1000 * 1000000)⟩

-- The length in seconds: both parts become doubles before they are added.
def inSeconds (s : Span) : Float :=
  s.seconds.toFloat + s.nanos.toFloat / 1000000000

end Span

-- Whole seconds as milliseconds.
def seconds (n : UInt64) : Nat :=
  1000 * n.toNat

namespace Clock

-- The last moment that the clock can tell: it counts whole seconds in 63 bits.
def last : Nat :=
  1000 * 0x8000000000000000 - 1

-- The moment so many milliseconds after another, if the clock can tell it.
def later? (now millis : Nat) : Option Nat :=
  if now + millis ≤ last then some (now + millis) else none

theorem later?_of_le {now millis : Nat} (h : now + millis ≤ last) :
    later? now millis = some (now + millis) := if_pos h

@[simp] theorem later?_eq_some {now millis till : Nat} :
    later? now millis = some till ↔ now + millis ≤ last ∧ now + millis = till := by
  unfold later?
  split <;> simp [*]

@[simp] theorem later?_eq_none {now millis : Nat} :
    later? now millis = none ↔ last < now + millis := by
  simp [later?]

end Clock

end MetricRelay
