import MetricRelay.Delivery.Breaker
import MetricRelay.Delivery.Exporter
import MetricRelay.Delivery.Network

namespace MetricRelay

-- How the attempt of a delivery came out, which is what the breaker is told. If telling it panics,
-- the delivery breaks off there and returns nothing.
inductive Outcome where
  | delivered
  -- the circuit was open and nothing was sent
  | skipped
  | failed
  | panicked
deriving DecidableEq

-- What takes snapshots to subscribers: the exporters, the network behind them, the breaker that all
-- deliveries share, and the requests made so far, the last one first.
structure Relay where
  exporters : Exporters
  network : Network
  breaker : Breaker
  journal : List (Nat × Request)

-- What the first part of a delivery leads to: its end, or waiting for an answer with a status, so
-- many milliseconds from now, or in vain.
inductive Launch where
  | over (o : Outcome)
  | awaiting (millis : Nat) (status : UInt16)
  | unanswered
deriving DecidableEq

namespace Relay

def new (p : BreakerPolicy) : Relay :=
  ⟨.standard, .calm, .new p, []⟩

-- Tells the breaker how an attempt ended.
def record (r : Relay) (key : String) (success : Bool) (now : Nat) : Relay :=
  { r with breaker := r.breaker.record key success now }

-- Makes a request.
def post (r : Relay) (now : Nat) (request : Request) : Relay :=
  { r with journal := (now, request) :: r.journal }

def outcomeOf (status : UInt16) : Outcome :=
  if isSuccess status then .delivered else .failed

-- Takes in the answer to an attempt.
def settle (r : Relay) (key : String) (status : UInt16) (now : Nat) : Outcome × Relay :=
  (outcomeOf status, r.record key (isSuccess status) now)

-- Takes note that an attempt was given up.
def abandon (r : Relay) (key : String) (now : Nat) : Relay :=
  r.record key false now

-- What comes of an attempt whose request was made.
def meet (r : Relay) (key : String) (now : Nat) : Reaction → Launch × Relay
  | .status code => let e := r.settle key code now; (.over e.1, e.2)
  | .refused => (.over .failed, r.record key false now)
  | .delayed millis code =>
    if millis = 0 then let e := r.settle key code now; (.over e.1, e.2)
    else (.awaiting millis code, r)
  | .silent => (.unanswered, r)

-- Begins a delivery: unless the circuit of the subscriber is open, the snapshot is encoded and the
-- request made. An attempt that is over has been recorded.
def launch (r : Relay) (now : Nat) (s : Subscriber) (x : Snapshot) : Launch × Relay :=
  let asked := { r with breaker := r.breaker.touch s.key }
  if !r.breaker.check s.key now then (.over .skipped, asked)
  else match r.exporters s.kind (.ofMillis now) s x with
    | .fault _ => (.over .failed, asked.record s.key false now)
    | .panic _ => (.over .panicked, asked.record s.key false now)
    | .value request => (asked.post now request).meet s.key now (r.network.reaction request.url)

-- The requests made so far, in order.
def requests (r : Relay) : List (Nat × Request) :=
  r.journal.reverse

-- When requests to a URL were made.
def arrivals (r : Relay) (url : String) : List Nat :=
  (r.requests.filter fun e => e.2.url == url).map (·.1)

end Relay

end MetricRelay
