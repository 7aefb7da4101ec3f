import MetricRelay.Clock
import MetricRelay.Settings.Basic

namespace MetricRelay

-- An entry at work: what it collects for whom, when it is due next, how many runs it has had and
-- whether one is in flight. Times are in milliseconds.
structure Job where
  id : Nat
  tasks : List Kind
  ports : List UInt16
  destinations : List Subscriber
  interval : Nat
  -- the number of runs that it is given, if there is one
  limit : Option Nat
  next : Nat
  runs : Nat
  inFlight : Bool
deriving DecidableEq

-- What is told about a job.
structure JobStatus where
  id : Nat
  runs : Nat
  limit : Option Nat
  interval : Nat
  nextIn : Nat
  inFlight : Bool
deriving DecidableEq

namespace Job

-- A job that is due at once.
def new (id : Nat) (s : Sentinel) (now : Nat) : Job where
  id := id
  tasks := s.tasks
  ports := s.listenedPorts
  destinations := s.subscribers
  interval := seconds s.interval
  limit := if s.isUnbounded then none else some s.count.toInt.toNat
  next := now
  runs := 0
  inFlight := false

def isDue (j : Job) (now : Nat) : Bool :=
  j.next ≤ now

-- Claims the job for one execution, if none is in flight.
def claim? (j : Job) : Option Job :=
  if j.inFlight then none else some { j with inFlight := true }

def release (j : Job) : Job :=
  { j with inFlight := false }

-- Counts one more run.
def countRun (j : Job) : Job :=
  { j with runs := j.runs + 1 }

-- Whether the run with this number is the last one.
def isFinal (j : Job) (run : Nat) : Bool :=
  match j.limit with
  | some most => most ≤ run
  | none => false

-- Makes the job due again one interval from now. If the clock cannot tell that moment, the
-- execution breaks off with a panic here, and the job is due as it was before.
def advance (j : Job) (now : Nat) : Job :=
  { j with next := (Clock.later? now j.interval).getD j.next }

def status (j : Job) (now : Nat) : JobStatus where
  id := j.id
  runs := j.runs
  limit := j.limit
  interval := j.interval
  nextIn := j.next - now
  inFlight := j.inFlight

end Job

end MetricRelay
