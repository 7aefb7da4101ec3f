import MetricRelay.Collection.Readings
import MetricRelay.Delivery.Relay
import MetricRelay.Scheduling.Scheduler

namespace MetricRelay

-- A piece of work of a node that runs without a break: a tick of the scheduler, the first and the
-- second half of the collection of an execution, the start of a delivery, and its answer.
inductive Task where
  | tick (epoch : Nat)
  | collect (e : Execution)
  | close (e : Execution) (started : Nat) (p : Collection.Pending)
  | deliver (s : Subscriber) (x : Snapshot)
  | reply (key : String) (status : UInt16)

-- What all jobs of a node have in common. The delay between two readings is in milliseconds.
structure Context where
  node : String
  delay : Nat
  advanceOnFailure : Bool
deriving DecidableEq

-- A node at work. Time stands still while tasks are ready, which run in the order in which they
-- became so. The others are asleep, each until its time, in the order in which they went to sleep.
structure Node where
  context : Context
  clock : Nat
  ready : List Task
  asleep : List (Nat × Task)
  scheduler : Scheduler
  source : Source
  relay : Relay

namespace Node

def new (context : Context) (source : Source) (relay : Relay) : Node :=
  ⟨context, 0, [], [], .new, source, relay⟩

-- Lets a task sleep for so many milliseconds.
def delayed (n : Node) (millis : Nat) (t : Task) : Node :=
  { n with asleep := n.asleep ++ [(n.clock + millis, t)] }

-- Takes in the end of a collection.
def conclude (n : Node) (e : Execution) (r : Result) : Node :=
  { n with scheduler := n.scheduler.conclude n.context.advanceOnFailure n.clock e r }

-- The second half of a collection. A snapshot goes to all destinations of the job, unless the run
-- that the execution belongs to has ended.
def closing (n : Node) (e : Execution) (started : Nat) (p : Collection.Pending) :
    List Task × Node :=
  let (r, source) := Collection.finish (.ofMillis (n.clock - started)) p n.source
  let n := { n with source := source }
  match r with
  | .error _ => ([], n.conclude e .failure)
  | .ok x =>
    (if n.scheduler.isCurrent e.epoch then e.job.destinations.map (Task.deliver · x) else [],
      n.conclude e .success)

-- The first half of a collection. Without rates, or if a reading fails, it is over at once.
def collecting (n : Node) (e : Execution) : List Task × Node :=
  let (r, source) :=
    Collection.start n.context.node (.ofMillis n.clock) e.job.tasks e.job.ports n.source
  let n := { n with source := source }
  match r with
  | .fault _ => ([], n.conclude e .failure)
  | .panic _ => ([], n.conclude e .panic)
  | .value p =>
    if p.firsts.isEmpty then n.closing e n.clock p
    else if n.context.delay = 0 then ([.close e n.clock p], n)
    else ([], n.delayed n.context.delay (.close e n.clock p))

-- Dispatches what is due, and sleeps until the next tick.
def ticking (n : Node) (epoch : Nat) : List Task × Node :=
  if n.scheduler.isCurrent epoch then
    let (es, s) := n.scheduler.scan n.clock
    (es.map Task.collect, { n with scheduler := s }.delayed (s.period.getD 0) (.tick epoch))
  else ([], n)

def delivering (n : Node) (s : Subscriber) (x : Snapshot) : Node :=
  let (l, r) := n.relay.launch n.clock s x
  let n := { n with relay := r }
  match l with
  | .awaiting millis status => n.delayed millis (.reply s.key status)
  | _ => n

-- Runs a task: what becomes ready with it, and the node afterwards.
def perform (n : Node) : Task → List Task × Node
  | .tick epoch => n.ticking epoch
  | .collect e => n.collecting e
  | .close e started p => n.closing e started p
  | .deliver s x => ([], n.delivering s x)
  | .reply key status => ([], { n with relay := (n.relay.settle key status n.clock).2 })

-- Runs a task that was ready, before the others that are.
def step (n : Node) (t : Task) (others : List Task) : Node :=
  let (woken, n') := { n with ready := others }.perform t
  { n' with ready := n'.ready ++ woken }

end Node

end MetricRelay
