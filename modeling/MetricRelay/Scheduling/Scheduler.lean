import MetricRelay.Scheduling.Job
import MetricRelay.Scheduling.Listener

namespace MetricRelay

-- The jobs of a node. Every start and every stop begins a new epoch, by which executions can tell
-- whether the jobs they belong to are still the present ones.
structure Scheduler where
  running : Bool
  epoch : Nat
  active : List Job
  -- milliseconds from tick to tick
  period : Option Nat
  audience : Audience

-- One run of a job, as the job was when it was dispatched.
structure Execution where
  epoch : Nat
  job : Job
deriving DecidableEq

-- What a start tells: the jobs made, the entries left aside, and the milliseconds between ticks.
structure StartReport where
  jobs : Nat
  dropped : Nat
  tick : Nat
deriving DecidableEq

-- How the collection of an execution ended.
inductive Result where
  | success
  | failure
  | panic
deriving DecidableEq

-- What the end of a collection does to its job: it can be dispatched again, and is due in an
-- interval, or at once if the collection did not succeed and is not to be passed over.
def Result.apply (advanceOnFailure : Bool) (now : Nat) (j : Job) : Result → Job
  | .success => (j.advance now).release
  | .failure => if advanceOnFailure then (j.advance now).release else j.release
  | .panic => j.release

namespace Scheduler

def new : Scheduler :=
  ⟨false, 0, [], none, .empty⟩

def listen (s : Scheduler) (l : Listener) : Scheduler :=
  { s with audience := s.audience.add l }

-- Whether the epoch is that of the jobs at work.
def isCurrent (s : Scheduler) (epoch : Nat) : Bool :=
  s.running && s.epoch == epoch

def zeroInterval (tasks : List Kind) : Fault :=
  .config ("sentinel interval must be positive (tasks: [" ++
    ", ".intercalate (tasks.map Kind.heading) ++ "])")

-- What a start without anything that drives the clock ends with.
def noDriver : Fault :=
  .scheduler "no tokio runtime to start on"

-- The jobs for entries of which the first gets the number `id`.
def jobsFrom (now : Nat) : Nat → List Sentinel → List Job
  | _, [] => []
  | id, s :: rest => .new id s now :: jobsFrom now (id + 1) rest

-- The smallest of some intervals; a second if there are none.
def shortest (intervals : List Nat) : Nat :=
  intervals.min?.getD 1000

-- Makes the jobs of all entries that are active, and begins an epoch with them. Entries that are
-- not active are left aside.
def launch (s : Scheduler) (entries : List Sentinel) (now : Nat) :
    Except Fault StartReport × Scheduler :=
  let chosen := entries.filter Sentinel.isActive
  if chosen.isEmpty then (.error .noActiveJobs, s)
  else match chosen.find? fun e => e.interval == 0 with
    | some e => (.error (zeroInterval e.tasks), s)
    | none =>
      let jobs := jobsFrom now 0 chosen
      let period := shortest (jobs.map Job.interval)
      (.ok ⟨jobs.length, entries.length - chosen.length, period⟩,
        { s with epoch := s.epoch + 1, active := jobs, period := some period })

-- Begins a run. The run is taken before the entries are looked at, so that no other start can come
-- in between, and given back if nothing comes of them.
def start (s : Scheduler) (entries : List Sentinel) (now : Nat) :
    Except Fault StartReport × Scheduler :=
  if s.running then (.error (.scheduler "scheduler already running"), s)
  else match { s with running := true }.launch entries now with
    | (.ok report, s') => (.ok report, s')
    | (.error f, s') => (.error f, { s' with running := false })

-- Begins a run, if there is anything that drives the clock. Without it nothing else is looked at.
def startOn (driven : Bool) (s : Scheduler) (entries : List Sentinel) (now : Nat) :
    Except Fault StartReport × Scheduler :=
  if driven then s.start entries now else (.error noDriver, s)

@[simp] theorem startOn_true (s : Scheduler) (entries : List Sentinel) (now : Nat) :
    startOn true s entries now = s.start entries now := rfl

-- Ends the run and tells the listeners. Without a run there is nothing to end and nobody is told.
def stop (s : Scheduler) : List ListenerOutcome × Scheduler :=
  if s.running then
    let (outcomes, audience) := s.audience.tell
    (outcomes, ⟨false, s.epoch + 1, [], none, audience⟩)
  else ([], s)

-- Ends the run without telling anybody.
def drop (s : Scheduler) : Scheduler :=
  { s with running := false }

-- What a tick does with a job: the execution that it dispatches, if the job is due and none is in
-- flight, and the job as it stays among the active ones, unless that was its last run.
def visit (epoch : Nat) (now : Nat) (j : Job) : Option Execution × Option Job :=
  if !j.isDue now then (none, some j)
  else match j.claim? with
    | none => (none, some j)
    | some claimed =>
      let j' := claimed.countRun
      (some ⟨epoch, j'⟩, if j'.isFinal j'.runs then none else some j')

-- Visits all active jobs in order.
def scan (s : Scheduler) (now : Nat) : List Execution × Scheduler :=
  let visits := s.active.map (visit s.epoch now)
  (visits.filterMap (·.1), { s with active := visits.filterMap (·.2) })

-- Changes the active job with a number.
def update (id : Nat) (change : Job → Job) (jobs : List Job) : List Job :=
  jobs.map fun j => if j.id = id then change j else j

-- Takes in the end of a collection. Jobs of an earlier epoch are gone.
def conclude (s : Scheduler) (advanceOnFailure : Bool) (now : Nat) (e : Execution)
    (r : Result) : Scheduler :=
  if s.isCurrent e.epoch then
    { s with active := update e.job.id (fun j => r.apply advanceOnFailure now j) s.active }
  else s

def status (s : Scheduler) (now : Nat) : List JobStatus :=
  s.active.map fun j => j.status now

end Scheduler

end MetricRelay
