import MetricRelay.Clock

namespace MetricRelay

-- How one destination fared: the failures since its last success, and until when it is to be left
-- alone.
structure Circuit where
  failures : UInt32
  openUntil : Option Nat
deriving DecidableEq

-- When a destination is left alone, and for how long.
structure BreakerPolicy where
  -- failures in a row that open the circuit
  limit : UInt32
  -- milliseconds
  cooldown : Nat
  limit_pos : 0 < limit

inductive CircuitState where
  | closed
  | opened
  | halfOpen
deriving DecidableEq

namespace BreakerPolicy

-- A limit of zero acts as one.
def make (limit : UInt32) (cooldown : Nat) : BreakerPolicy :=
  if h : 0 < limit then ⟨limit, cooldown, h⟩ else ⟨1, cooldown, by decide⟩

-- Five failures, a minute.
def standard : BreakerPolicy :=
  ⟨5, 60000, by decide⟩

end BreakerPolicy

namespace Circuit

-- A destination never tried.
def fresh : Circuit :=
  ⟨0, none⟩

-- Whether the destination may be tried now.
def allows (c : Circuit) (now : Nat) : Bool :=
  match c.openUntil with
  | some till => till ≤ now
  | none => true

-- The failures with one more. The count stops at the largest word.
def oneMore (c : Circuit) : UInt32 :=
  if c.failures = 0xFFFFFFFF then c.failures else c.failures + 1

-- Whether taking note of how an attempt ended breaks off with a panic: the circuit is to be opened,
-- but the clock cannot tell the end of the cooldown.
def panics (p : BreakerPolicy) (now : Nat) (success : Bool) (c : Circuit) : Bool :=
  !success && decide (p.limit ≤ c.oneMore) && (Clock.later? now p.cooldown).isNone

-- Takes note of how an attempt ended. Every failure from the limit on opens the circuit anew. A
-- panic comes when the failure is counted already, and leaves alone until when the circuit is open.
def record (p : BreakerPolicy) (now : Nat) (success : Bool) (c : Circuit) : Circuit :=
  if success then fresh
  else ⟨c.oneMore,
    if p.limit ≤ c.oneMore then (Clock.later? now p.cooldown).or c.openUntil else c.openUntil⟩

def state (p : BreakerPolicy) (now : Nat) (c : Circuit) : CircuitState :=
  if c.failures < p.limit then .closed
  else match c.openUntil with
    | some till => if now < till then .opened else .halfOpen
    | none => .halfOpen

-- Milliseconds until the destination may be tried again.
def retryIn (now : Nat) (c : Circuit) : Nat :=
  match c.openUntil with
  | some till => till - now
  | none => 0

end Circuit

-- The circuits of all destinations that were tried, by key.
structure Breaker where
  policy : BreakerPolicy
  circuits : List (String × Circuit)

namespace Breaker

def new (p : BreakerPolicy) : Breaker :=
  ⟨p, []⟩

def circuit (b : Breaker) (key : String) : Circuit :=
  ((b.circuits.find? fun e => e.1 == key).map (·.2)).getD .fresh

-- Replaces the circuit of a key, or adds one at the end.
def put (key : String) (c : Circuit) : List (String × Circuit) → List (String × Circuit)
  | [] => [(key, c)]
  | e :: rest => if e.1 == key then (key, c) :: rest else e :: put key c rest

def check (b : Breaker) (key : String) (now : Nat) : Bool :=
  (b.circuit key).allows now

-- Makes room for the circuit of a key, which every check does.
def touch (b : Breaker) (key : String) : Breaker :=
  { b with circuits := put key (b.circuit key) b.circuits }

def record (b : Breaker) (key : String) (success : Bool) (now : Nat) : Breaker :=
  { b with circuits := put key ((b.circuit key).record b.policy now success) b.circuits }

-- Whether a call that tells how an attempt ended panics instead of returning.
def panics (b : Breaker) (key : String) (success : Bool) (now : Nat) : Bool :=
  (b.circuit key).panics b.policy now success

def state (b : Breaker) (key : String) (now : Nat) : CircuitState :=
  (b.circuit key).state b.policy now

def failures (b : Breaker) (key : String) : UInt32 :=
  (b.circuit key).failures

def retryIn (b : Breaker) (key : String) (now : Nat) : Nat :=
  (b.circuit key).retryIn now

end Breaker

end MetricRelay
