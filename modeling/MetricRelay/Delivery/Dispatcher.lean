import MetricRelay.Delivery.Relay

namespace MetricRelay

-- Where a delivery has got to.
inductive Stage where
  | over (o : Outcome)
  | awaiting (due : Nat) (status : UInt16)
  | unanswered
deriving DecidableEq

-- A delivery that was begun, to the destination with a number.
structure Parcel where
  destination : Nat
  key : String
  stage : Stage
deriving DecidableEq

def Launch.stage (now : Nat) : Launch → Stage
  | .over o => .over o
  | .awaiting millis status => .awaiting (now + millis) status
  | .unanswered => .unanswered

-- The parcel at a later time.
def Parcel.later (till : Nat) (p : Parcel) : Parcel :=
  match p.stage with
  | .awaiting due status =>
    if due ≤ till then { p with stage := .over (Relay.outcomeOf status) } else p
  | _ => p

-- How somebody who waits for a delivery sees it end.
inductive Verdict where
  | outcome (o : Outcome)
  | cancelled
  | gaveUp
deriving DecidableEq

-- Deliveries that are begun and waited for one by one. Those begun and not yet waited for are
-- underway, the oldest first.
structure Dispatcher where
  clock : Nat
  relay : Relay
  underway : List Parcel

namespace Dispatcher

def new (r : Relay) : Dispatcher :=
  ⟨0, r, []⟩

-- How long somebody waits for a delivery, in milliseconds: an hour.
def patience : Nat := 3600000

-- The answers that come no later than `till`, in the order in which they come.
def answers (till : Nat) (ps : List Parcel) : List (Nat × String × UInt16) :=
  (ps.filterMap fun p =>
    match p.stage with
    | .awaiting due status => if due ≤ till then some (due, p.key, status) else none
    | _ => none).mergeSort fun a b => a.1 ≤ b.1

-- Lets time pass.
def advanceTo (d : Dispatcher) (till : Nat) : Dispatcher where
  clock := max d.clock till
  relay := (answers till d.underway).foldl (fun r a => (r.settle a.2.1 a.2.2 a.1).2) d.relay
  underway := d.underway.map (Parcel.later till)

def sleep (d : Dispatcher) (millis : Nat) : Dispatcher :=
  d.advanceTo (d.clock + millis)

-- Begins a delivery.
def begin (d : Dispatcher) (destination : Nat) (s : Subscriber) (x : Snapshot) : Dispatcher :=
  let (l, r) := d.relay.launch d.clock s x
  { d with relay := r, underway := d.underway ++ [⟨destination, s.key, Launch.stage d.clock l⟩] }

-- Waits for the parcel at a place and takes it away.
def await (d : Dispatcher) (place : Nat) : Option (Parcel × Verdict × Dispatcher) :=
  d.underway[place]?.map fun p =>
    let limit := d.clock + patience
    let leave := fun (d : Dispatcher) => { d with underway := d.underway.eraseIdx place }
    match p.stage with
    | .over o => (p, .outcome o, leave d)
    | .awaiting due status =>
      if due ≤ limit then (p, .outcome (Relay.outcomeOf status), leave (d.advanceTo due))
      else (p, .gaveUp, leaveLate d place p.key limit)
    | .unanswered => (p, .gaveUp, leaveLate d place p.key limit)
where
  leaveLate (d : Dispatcher) (place : Nat) (key : String) (limit : Nat) : Dispatcher :=
    let d := d.advanceTo limit
    { d with relay := d.relay.abandon key limit, underway := d.underway.eraseIdx place }

-- Begins a delivery and waits for it.
def deliver (d : Dispatcher) (destination : Nat) (s : Subscriber) (x : Snapshot) :
    Option (Parcel × Verdict × Dispatcher) :=
  (d.begin destination s x).await d.underway.length

-- Waits for the oldest parcel.
def finish (d : Dispatcher) : Option (Parcel × Verdict × Dispatcher) :=
  d.await 0

-- Takes the oldest parcel away. If it is not over yet its attempt is given up.
def abort (d : Dispatcher) : Option (Parcel × Verdict × Dispatcher) :=
  match d.underway with
  | [] => none
  | p :: rest =>
    match p.stage with
    | .over o => some (p, .outcome o, { d with underway := rest })
    | _ => some (p, .cancelled, { d with relay := d.relay.abandon p.key d.clock, underway := rest })

end Dispatcher

end MetricRelay
