import MetricRelay.Scheduling.Drain

namespace MetricRelay

namespace Node

-- The next time at which something wakes, up to a given one.
def nextWake? (n : Node) (till : Nat) : Option Nat :=
  ((n.asleep.map (·.1)).filter fun d => n.clock < d && d ≤ till).min?

theorem nextWake?_bounds {n : Node} {till d : Nat} (h : n.nextWake? till = some d) :
    n.clock < d ∧ d ≤ till := by
  have := List.min?_mem h
  simpa using (List.mem_filter.1 this).2

-- Moves the clock, and makes ready what slept until then.
def wake (n : Node) (d : Nat) : Node :=
  { n with
    clock := d
    ready := n.ready ++ (n.asleep.filter fun e => e.1 == d).map (·.2)
    asleep := n.asleep.filter fun e => e.1 != d }

-- Lets everything happen that happens up to a time.
def runUntil (till : Nat) (n : Node) : Node :=
  match _h : n.drain.nextWake? till with
  | none => { n.drain with clock := max n.clock till }
  | some d => runUntil till (n.drain.wake d)
termination_by till - n.clock
decreasing_by
  have := nextWake?_bounds _h
  rw [drain_clock] at this
  simp only [wake]
  omega

-- Lets time pass. To wait no time at all lets nothing happen.
def sleep (millis : Nat) (n : Node) : Node :=
  if millis = 0 then n else runUntil (n.clock + millis) n

-- Starts the scheduler on the clock of the node; its first tick is ready at once.
def start (n : Node) (entries : List Sentinel) : Except Fault StartReport × Node :=
  match n.scheduler.startOn true entries n.clock with
  | (.ok report, s) => (.ok report, { n with scheduler := s, ready := n.ready ++ [.tick s.epoch] })
  | (.error f, s) => (.error f, { n with scheduler := s })

theorem start_eq (n : Node) (entries : List Sentinel) :
    n.start entries = match n.scheduler.start entries n.clock with
      | (.ok report, s) =>
        (.ok report, { n with scheduler := s, ready := n.ready ++ [.tick s.epoch] })
      | (.error f, s) => (.error f, { n with scheduler := s }) := rfl

def stop (n : Node) : List ListenerOutcome × Node :=
  let (outcomes, s) := n.scheduler.stop
  (outcomes, { n with scheduler := s })

def listen (n : Node) (l : Listener) : Node :=
  { n with scheduler := n.scheduler.listen l }

def drop (n : Node) : Node :=
  { n with scheduler := n.scheduler.drop }

def status (n : Node) : List JobStatus :=
  n.scheduler.status n.clock

end Node

-- The node that settings describe.
def Settings.node (s : Settings) (source : Source) : Node :=
  .new ⟨s.name, s.sampling.delayMs.toNat, s.scheduler.advanceOnFailure⟩ source
    (.new s.breaker.policy)

end MetricRelay
