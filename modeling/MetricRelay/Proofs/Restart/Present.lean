import MetricRelay.Proofs.Isolation.Notes

namespace MetricRelay

-- What a task is to the present run: its next tick, or a half of the collection of a job as it was
-- when it was dispatched. What the first half read does not matter.
inductive Errand where
  | tick
  | half (second : Bool) (j : Job)

-- Tasks of earlier runs and exports are no errands.
def Scheduler.errand? (s : Scheduler) : Task → Option Errand
  | .tick epoch => if s.isCurrent epoch then some .tick else none
  | .collect e => if s.isCurrent e.epoch then some (.half false e.job) else none
  | .close e _ _ => if s.isCurrent e.epoch then some (.half true e.job) else none
  | .deliver .. | .reply .. => none

-- The present run of a node: its jobs, and the errands that are ready or asleep. Which epoch it is
-- does not matter.
structure Present where
  context : Context
  clock : Nat
  running : Bool
  active : List Job
  period : Option Nat
  ready : List Errand
  asleep : List (Nat × Errand)

namespace Present

-- A tick begins the jobs that are due and idle, and those of which it was the last run leave.
def tick (p : Present) : Present :=
  { p with
    active := p.active.filterMap fun j =>
      if j.isIdleDue p.clock then
        if j.isFinal (j.runs + 1) then none else some j.begun
      else some j
    ready := p.ready ++ (p.active.filter (·.isIdleDue p.clock)).map fun j => .half false j.begun
    asleep := p.asleep ++ [(p.clock + p.period.getD 0, .tick)] }

-- The second half of a collection follows after a while.
def pause (p : Present) (j : Job) : Present :=
  if p.context.delay = 0 then { p with ready := p.ready ++ [.half true j] }
  else { p with asleep := p.asleep ++ [(p.clock + p.context.delay, .half true j)] }

def finish (p : Present) (j : Job) (r : Result) : Present :=
  { p with active := Scheduler.update j.id (r.apply p.context.advanceOnFailure p.clock) p.active }

-- Runs an errand. A half of a collection ends it with a result, or lets it wait.
def perform (p : Present) (r : Option Result) : Errand → Present
  | .tick => p.tick
  | .half _ j =>
    match r with
    | some r => p.finish j r
    | none => p.pause j

-- The jobs that an errand dispatches, with the time.
def leaving (p : Present) : Errand → List (Nat × Job)
  | .tick => (p.active.filter (·.isIdleDue p.clock)).map fun j => (p.clock, j.begun)
  | .half .. => []

-- Moves the clock, and makes ready what slept until then.
def wake (p : Present) (d : Nat) : Present :=
  { p with
    clock := d
    ready := p.ready ++ (p.asleep.filter fun e => e.1 == d).map (·.2)
    asleep := p.asleep.filter fun e => e.1 != d }

end Present

-- How a half of the collection of a run of a job comes out: with a result, or without one if the
-- second half is to follow.
structure Upshot where
  id : Nat
  run : Nat
  second : Bool
  result : Option Result
deriving DecidableEq

-- Whether the collections of two runs of the scheduler that correspond to each other, as the same
-- run of the same job, come out in the same way.
def Agree (vs vs' : List Upshot) : Prop :=
  ∀ v ∈ vs, ∀ v' ∈ vs', v.id = v'.id → v.run = v'.run → v.second = v'.second → v.result = v'.result

instance (vs vs' : List Upshot) : Decidable (Agree vs vs') :=
  inferInstanceAs (Decidable (∀ v ∈ vs, ∀ v' ∈ vs',
    v.id = v'.id → v.run = v'.run → v.second = v'.second → v.result = v'.result))

theorem Agree.append {vs vs' more more' : List Upshot} (h : Agree (vs ++ more) (vs' ++ more')) :
    Agree vs vs' ∧ Agree more more' :=
  ⟨fun v hv v' hv' => h v (List.mem_append_left _ hv) v' (List.mem_append_left _ hv'),
    fun v hv v' hv' => h v (List.mem_append_right _ hv) v' (List.mem_append_right _ hv')⟩

namespace Node

-- How the half of a collection of the present run comes out that is about to run, if it is one.
def upshots (n : Node) : List Upshot :=
  match n.ready with
  | [] => []
  | t :: _ =>
    match n.scheduler.errand? t with
    | some (.half second j) => [⟨j.id, j.runs, second, (n.ending? t).map (·.2)⟩]
    | _ => []

def present (n : Node) : Present where
  context := n.context
  clock := n.clock
  running := n.scheduler.running
  active := n.scheduler.active
  period := n.scheduler.period
  ready := n.ready.filterMap n.scheduler.errand?
  asleep := n.asleep.filterMap fun e => (n.scheduler.errand? e.2).map (e.1, ·)

end Node

namespace Scheduler

-- What is an errand depends on the epoch and on nothing else.
theorem errand?_congr {s s' : Scheduler} (hrunning : s.running = s'.running)
    (hepoch : s.epoch = s'.epoch) : s.errand? = s'.errand? := by
  have hcurrent : s.isCurrent = s'.isCurrent := by
    funext epoch
    simp only [isCurrent, hrunning, hepoch]
  funext t
  cases t <;> simp only [errand?, hcurrent]

variable {s : Scheduler}

theorem errand?_none_of_work? {t : Task} {e : Execution} (hwork : t.work? = some e)
    (h : s.errand? t = none) : s.isCurrent e.epoch = false := by
  cases t with
  | collect e' | close e' started p =>
      cases hwork
      cases hcurrent : s.isCurrent e.epoch with
      | false => rfl
      | true => simp [errand?, hcurrent] at h
  | tick | deliver | reply => cases hwork

theorem errand?_of_work? {t : Task} {e : Execution} {x : Errand} (hwork : t.work? = some e)
    (h : s.errand? t = some x) : s.isCurrent e.epoch = true ∧ x = .half t.isSecond e.job := by
  cases t with
  | collect e' | close e' started p =>
      cases hwork
      cases hcurrent : s.isCurrent e.epoch with
      | false => simp [errand?, hcurrent] at h
      | true =>
          simp only [errand?, hcurrent, if_true] at h
          exact ⟨rfl, (Option.some.inj h).symm⟩
  | tick | deliver | reply => cases hwork

theorem errand?_fanOut (s : Scheduler) (ds : List Subscriber) (x : Snapshot) :
    (ds.map (Task.deliver · x)).filterMap s.errand? = [] := by
  simp [List.filterMap_map, Function.comp_def, errand?]

-- The jobs that stay after a tick.
theorem scan_stay (s : Scheduler) (now : Nat) :
    (s.scan now).2.active = s.active.filterMap fun j =>
      if j.isIdleDue now then
        if j.isFinal (j.runs + 1) then none else some j.begun
      else some j := by
  rw [scan_active]
  refine List.filterMap_congr fun j _ => ?_
  rw [visit_eq]
  split <;> rfl

theorem errand?_scan {epoch now : Nat} (h : s.isCurrent epoch = true) :
    ((s.scan now).1.map Task.collect).filterMap s.errand? =
      (s.active.filter (·.isIdleDue now)).map fun j => .half false j.begun := by
  have hepoch : s.isCurrent s.epoch = true := isCurrent_iff.mpr ⟨(isCurrent_iff.mp h).1, rfl⟩
  rw [scan_executions, List.map_map, List.filterMap_map, ← List.filterMap_eq_map]
  exact List.filterMap_congr fun j _ => if_pos hepoch

theorem conclude_period (s : Scheduler) (advanceOnFailure : Bool) (now : Nat) (e : Execution)
    (r : Result) : (s.conclude advanceOnFailure now e r).period = s.period := by
  unfold conclude
  split <;> rfl

end Scheduler

namespace Node

open Scheduler

variable {n : Node} {others : List Task} {t : Task} {c : Change}

private theorem exists_turn_head (hready : n.ready = t :: others) :
    ∃ c, n.Turn t c ∧ n.step t others = n.change 0 c := by
  obtain ⟨c, hturn, -, hafter⟩ := exists_turn (place_of_ready hready)
  exact ⟨c, hturn, after_of_ready hready ▸ hafter⟩

-- What a change shows of itself to the present run while that goes on.
private theorem present_change (hready : n.ready = t :: others)
    (hrunning : c.scheduler.running = n.scheduler.running)
    (hepoch : c.scheduler.epoch = n.scheduler.epoch)
    (hperiod : c.scheduler.period = n.scheduler.period) :
    (n.change 0 c).present = { n.present with
      active := c.scheduler.active
      ready := others.filterMap n.scheduler.errand? ++ c.woken.filterMap n.scheduler.errand?
      asleep := n.present.asleep ++
        c.slept.filterMap fun e => (n.scheduler.errand? e.2).map (e.1, ·) } := by
  have herrand := errand?_congr hrunning hepoch
  simp only [present, change, hready, List.eraseIdx_cons_zero, herrand, List.filterMap_append,
    hrunning, hperiod]

-- A task that is no errand does not show.
theorem present_step_of_none (hready : n.ready = t :: others) (ht : n.scheduler.errand? t = none) :
    (n.step t others).present = n.present := by
  have hhead : n.ready.filterMap n.scheduler.errand? = others.filterMap n.scheduler.errand? := by
    rw [hready, List.filterMap_cons_none ht]
  obtain ⟨c, hturn, hstep⟩ := exists_turn_head hready
  -- nothing becomes of the task but work of the same execution, and its result comes too late
  have hquiet : c.scheduler = n.scheduler ∧ c.woken.filterMap n.scheduler.errand? = [] ∧
      (c.slept.filterMap fun e => (n.scheduler.errand? e.2).map (e.1, ·)) = [] := by
    cases hturn with
    | idle => exact ⟨rfl, rfl, rfl⟩
    | scan hcurrent => simp [errand?, hcurrent] at ht
    | pause hhalf hd | hurry hhalf hd =>
        have hcurrent := errand?_none_of_work? rfl ht
        simp [errand?, hcurrent]
    | succeed source hend =>
        have hcurrent := errand?_none_of_work? (work?_of_ending? (ending?_of_completion? hend)) ht
        simp [Scheduler.conclude, hcurrent]
    | fail source hend hr =>
        have hcurrent := errand?_none_of_work? (work?_of_ending? hend) ht
        simp [Scheduler.conclude, hcurrent]
    | deliver s x =>
        refine ⟨rfl, rfl, ?_⟩
        unfold awaited
        split <;> rfl
    | reply key status => exact ⟨rfl, rfl, rfl⟩
  obtain ⟨hscheduler, hwoken, hslept⟩ := hquiet
  rw [hstep, present_change hready (by rw [hscheduler]) (by rw [hscheduler]) (by rw [hscheduler]),
    hscheduler, hwoken, hslept, List.append_nil, List.append_nil, ← hhead]
  rfl

-- An errand runs as if there was nothing but the present run.
theorem present_step_of_some {x : Errand} (hready : n.ready = t :: others)
    (ht : n.scheduler.errand? t = some x) :
    (n.step t others).present =
      ({ n.present with ready := others.filterMap n.scheduler.errand? } : Present).perform
        ((n.ending? t).map (·.2)) x := by
  obtain ⟨c, hturn, hstep⟩ := exists_turn_head hready
  rw [hstep]
  cases hturn with
  | idle hidle => simp [errand?, hidle] at ht
  | scan hcurrent =>
      rw [errand?, if_pos hcurrent] at ht
      cases ht
      rw [present_change hready rfl rfl rfl, errand?_scan hcurrent, scan_stay]
      simp only [List.filterMap_cons, List.filterMap_nil, errand?, if_pos hcurrent]
      rfl
  | pause hhalf hd =>
      obtain ⟨hcurrent, rfl⟩ := errand?_of_work? rfl ht
      rw [present_change hready rfl rfl rfl, ending?_of_halfway? hhalf]
      simp [Present.perform, Present.pause, present, errand?, hcurrent, Nat.ne_of_gt hd]
  | hurry hhalf hd =>
      obtain ⟨hcurrent, rfl⟩ := errand?_of_work? rfl ht
      rw [present_change hready rfl rfl rfl, ending?_of_halfway? hhalf]
      simp [Present.perform, Present.pause, present, errand?, hcurrent, hd]
  | @succeed _ e y source hend =>
      have hend' := ending?_of_completion? hend
      obtain ⟨hcurrent, rfl⟩ := errand?_of_work? (work?_of_ending? hend') ht
      have hrun := conclude_run (s := n.scheduler) n.context.advanceOnFailure n.clock e .success
      rw [present_change hready hrun.1 hrun.2 (conclude_period ..), hend', if_pos hcurrent,
        errand?_fanOut]
      simp [Present.perform, Present.finish, present, Scheduler.conclude, hcurrent]
  | @fail _ e r source hend hr =>
      obtain ⟨hcurrent, rfl⟩ := errand?_of_work? (work?_of_ending? hend) ht
      have hrun := conclude_run (s := n.scheduler) n.context.advanceOnFailure n.clock e r
      rw [present_change hready hrun.1 hrun.2 (conclude_period ..), hend]
      simp [Present.perform, Present.finish, present, Scheduler.conclude, hcurrent]
  | deliver s x => cases ht
  | reply key status => cases ht

theorem leaving_of_none (hready : n.ready = t :: others) (ht : n.scheduler.errand? t = none) :
    n.leaving = [] := by
  have hidle : ∀ epoch, t = .tick epoch → n.scheduler.isCurrent epoch = false := by
    rintro epoch rfl
    cases hcurrent : n.scheduler.isCurrent epoch with
    | false => rfl
    | true => simp [errand?, hcurrent] at ht
  rw [leaving, departed, dispatched_of_idle hready hidle]
  rfl

theorem leaving_of_some {x : Errand} (hready : n.ready = t :: others)
    (ht : n.scheduler.errand? t = some x) :
    (n.leaving.map fun d => (d.1, d.2.job)) = n.present.leaving x := by
  cases t with
  | tick epoch =>
      cases hcurrent : n.scheduler.isCurrent epoch with
      | false => simp [errand?, hcurrent] at ht
      | true =>
          rw [errand?, if_pos hcurrent] at ht
          cases ht
          rw [leaving, departed, (perform_tick (place_of_ready hready) hcurrent).1, scan_executions, List.map_map,
            List.map_map]
          rfl
  | collect e | close e started p =>
      have hhalf := (errand?_of_work? rfl ht).2
      rw [leaving, departed, dispatched_of_idle hready (fun epoch htick => by cases htick), hhalf]
      rfl
  | deliver | reply => cases ht

theorem upshots_of_none (hready : n.ready = t :: others) (ht : n.scheduler.errand? t = none) :
    n.upshots = [] := by
  simp only [upshots, hready, ht]

theorem upshots_of_half {second : Bool} {j : Job} (hready : n.ready = t :: others)
    (ht : n.scheduler.errand? t = some (.half second j)) :
    n.upshots = [⟨j.id, j.runs, second, (n.ending? t).map (·.2)⟩] := by
  simp only [upshots, hready, ht]

-- Nor does it matter to the present run how destinations answer.
theorem present_facing (w : Transport) (n : Node) (t : Task) :
    (n.facing w t).present = n.present := by
  cases t <;> rfl

theorem present_wake (n : Node) (d : Nat) : (n.wake d).present = n.present.wake d := by
  have hwoken : ((n.asleep.filter fun e => e.1 == d).map (·.2)).filterMap n.scheduler.errand? =
      ((n.asleep.filterMap fun e => (n.scheduler.errand? e.2).map (e.1, ·)).filter
        fun e => e.1 == d).map (·.2) := by
    rw [List.filterMap_map, List.filterMap_filter, List.filter_filterMap, List.map_filterMap]
    refine List.filterMap_congr fun e _ => ?_
    cases hdue : e.1 == d <;> cases hx : n.scheduler.errand? e.2 <;> simp [Option.filter, hdue, hx]
  have hkept : ((n.asleep.filter fun e => e.1 != d).filterMap
        fun e => (n.scheduler.errand? e.2).map (e.1, ·)) =
      (n.asleep.filterMap fun e => (n.scheduler.errand? e.2).map (e.1, ·)).filter
        fun e => e.1 != d := by
    rw [List.filterMap_filter, List.filter_filterMap]
    refine List.filterMap_congr fun e _ => ?_
    cases hdue : e.1 != d <;> cases hx : n.scheduler.errand? e.2 <;> simp [Option.filter, hdue]
  simp only [present, wake, Present.wake, List.filterMap_append, hwoken, hkept]

end Node

end MetricRelay
