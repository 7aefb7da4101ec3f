import MetricRelay.Proofs.Scheduling.DispatchTimes

namespace MetricRelay

theorem Sentinel.isActive_iff (e : Sentinel) :
    e.isActive = true ↔ e.tasks ≠ [] ∧ e.subscribers ≠ [] := by
  simp [isActive]

namespace Scheduler

-- How the parts of a scheduler fit together, whatever was started and stopped: without a run there
-- is nothing at work, and the ticks of a run are as close as the shortest of its intervals.
structure Coherent (s : Scheduler) : Prop where
  idle : s.running = false → s.active = [] ∧ s.period = none
  paced : s.running = true → ∃ p, s.period = some p ∧ 0 < p ∧ ∀ j ∈ s.active, p ≤ j.interval
  ordered : (s.active.map Job.id).Pairwise (· < ·)

variable {s s' : Scheduler}

theorem coherent_new : new.Coherent :=
  ⟨fun _ => ⟨rfl, rfl⟩, fun h => Bool.noConfusion h, .nil⟩

theorem interval_apply (r : Result) (advanceOnFailure : Bool) (now : Nat) (j : Job) :
    (r.apply advanceOnFailure now j).interval = j.interval := by
  cases r with
  | failure => cases advanceOnFailure <;> rfl
  | success | panic => rfl

-- The jobs of a new run, in the order of their entries.
theorem start_active {entries : List Sentinel} {now : Nat} {report : StartReport}
    (h : s.start entries now = (.ok report, s')) :
    s'.active = (entries.filter Sentinel.isActive).mapIdx fun id e => Job.new id e now := by
  rw [(start_ok h).2.2, jobsFrom_eq]
  simp only [Nat.zero_add]

theorem Coherent.started {entries : List Sentinel} {now : Nat} {report : StartReport}
    (h : s.start entries now = (.ok report, s')) : s'.Coherent := by
  obtain ⟨hrunning, -, hactive⟩ := start_ok h
  obtain ⟨hperiod, hpos, -, hle⟩ := start_period h
  refine ⟨fun hidle => ?_, fun _ => ⟨report.tick, hperiod, hpos, fun j hj => ?_⟩, ?_⟩
  · rw [hrunning] at hidle
    cases hidle
  · rw [start_active h] at hj
    obtain ⟨i, hi, rfl⟩ := List.mem_mapIdx.mp hj
    exact hle _ (List.getElem_mem hi)
  · rw [hactive, map_id_jobsFrom]
    exact List.pairwise_lt_range'

theorem Coherent.step (h : s.Coherent) {advanceOnFailure : Bool} {now : Nat} {es : List Execution}
    (hstep : s.Step advanceOnFailure now es s') : s'.Coherent := by
  cases hstep with
  | rest => exact h
  | listen l => exact ⟨h.idle, h.paced, h.ordered⟩
  | start hstart => exact .started hstart
  | conclude e r =>
      have hids := conclude_ids (s := s) advanceOnFailure now e r
      cases hcurrent : s.isCurrent e.epoch with
      | false =>
          have hsame : s.conclude advanceOnFailure now e r = s := by
            simp [Scheduler.conclude, hcurrent]
          rwa [hsame]
      | true =>
          have hrunning := (isCurrent_iff.mp hcurrent).1
          obtain ⟨p, hperiod, hpos, hle⟩ := h.paced hrunning
          refine ⟨fun hidle => ?_, fun _ => ⟨p, ?_, hpos, fun j' hj' => ?_⟩, hids ▸ h.ordered⟩
          · rw [(conclude_run ..).1, hrunning] at hidle
            cases hidle
          · simpa [Scheduler.conclude, hcurrent] using hperiod
          · obtain ⟨j, hj, rfl⟩ := mem_conclude_active hcurrent hj'
            split
            · rw [interval_apply]
              exact hle j hj
            · exact hle j hj
  | scan hrunning =>
      obtain ⟨p, hperiod, hpos, hle⟩ := h.paced hrunning
      refine ⟨fun hidle => ?_, fun _ => ⟨p, hperiod, hpos, fun j' hj' => ?_⟩, ?_⟩
      · change s.running = false at hidle
        rw [hrunning] at hidle
        cases hidle
      · obtain ⟨j, hj, rfl⟩ := mem_scan_active hj'
        split <;> exact hle j hj
      · rw [(scan_ids s now).2]
        exact h.ordered.sublist (List.filter_sublist.map Job.id)

theorem Coherent.stop (h : s.Coherent) : s.stop.2.Coherent := by
  unfold Scheduler.stop
  split
  · exact ⟨fun _ => ⟨rfl, rfl⟩, fun hrunning => Bool.noConfusion hrunning, .nil⟩
  · exact h

theorem length_jobsFrom (now id : Nat) (entries : List Sentinel) :
    (jobsFrom now id entries).length = entries.length := by
  rw [← List.length_map (f := Job.id), map_id_jobsFrom, List.length_range']

-- What can become of a start: it comes too early, it has nothing to do, it meets an interval that
-- is nothing, or it makes the jobs.
inductive Started (s : Scheduler) (entries : List Sentinel) (now : Nat) :
    Except Fault StartReport × Scheduler → Prop where
  | early (h : s.running = true) :
      s.Started entries now (.error (.scheduler "scheduler already running"), s)
  | idle (h : s.running = false) (hnone : entries.filter Sentinel.isActive = []) :
      s.Started entries now (.error .noActiveJobs, s)
  | restless (h : s.running = false) {e : Sentinel}
      (he : (entries.filter Sentinel.isActive).find? (fun e => e.interval == 0) = some e) :
      s.Started entries now (.error (zeroInterval e.tasks), s)
  | made (h : s.running = false) (hsome : entries.filter Sentinel.isActive ≠ [])
      (hall : ∀ e ∈ entries.filter Sentinel.isActive, e.interval ≠ 0) {report : StartReport}
      (hjobs : report.jobs = (entries.filter Sentinel.isActive).length)
      (hdropped : report.dropped = entries.length - (entries.filter Sentinel.isActive).length)
      (s' : Scheduler) : s.Started entries now (.ok report, s')

theorem started (s : Scheduler) (entries : List Sentinel) (now : Nat) :
    s.Started entries now (s.start entries now) := by
  rw [start_eq]
  split
  · rename_i hrunning
    exact .early hrunning
  · rename_i hrunning
    have hrunning : s.running = false := Bool.eq_false_iff.mpr hrunning
    dsimp only
    split
    · rename_i hempty
      exact .idle hrunning (List.isEmpty_iff.mp hempty)
    · rename_i hempty
      split
      · rename_i e hzero
        exact .restless hrunning hzero
      · rename_i hzero
        refine .made hrunning (fun hnil => hempty (List.isEmpty_iff.mpr hnil)) (fun e he => ?_)
          (length_jobsFrom ..) rfl _
        simpa using List.find?_eq_none.mp hzero e he

theorem start_refused {entries : List Sentinel} {now : Nat} {f : Fault}
    (h : (s.start entries now).1 = .error f) :
    (s.running = true ∧ f = .scheduler "scheduler already running") ∨
    (s.running = false ∧ entries.filter Sentinel.isActive = [] ∧ f = .noActiveJobs) ∨
    s.running = false ∧ ∃ e,
      (entries.filter Sentinel.isActive).find? (fun e => e.interval == 0) = some e ∧
        f = zeroInterval e.tasks := by
  have hstarted := s.started entries now
  generalize s.start entries now = out at h hstarted
  cases hstarted with
  | early hrunning =>
      cases h
      exact .inl ⟨hrunning, rfl⟩
  | idle hidle hnone =>
      cases h
      exact .inr (.inl ⟨hidle, hnone, rfl⟩)
  | restless hidle he =>
      cases h
      exact .inr (.inr ⟨hidle, _, he, rfl⟩)
  | made => cases h

-- What a start tells that is accepted.
theorem start_report {entries : List Sentinel} {now : Nat} {report : StartReport}
    (h : s.start entries now = (.ok report, s')) :
    report.jobs = (entries.filter Sentinel.isActive).length ∧
    report.jobs + report.dropped = entries.length ∧
    ((entries.filter Sentinel.isActive).map fun e => seconds e.interval).min? =
      some report.tick := by
  have hstarted := s.started entries now
  rw [h] at hstarted
  obtain ⟨-, -, ⟨e, he, htick⟩, hle⟩ := start_period h
  have hchosen : (entries.filter Sentinel.isActive).length ≤ entries.length :=
    List.length_filter_le ..
  cases hstarted with
  | made _ _ _ hjobs hdropped =>
      refine ⟨hjobs, by omega, List.min?_eq_some_iff.mpr ⟨?_, fun i hi => ?_⟩⟩
      · rw [htick]
        exact List.mem_map_of_mem he
      · obtain ⟨e', he', rfl⟩ := List.mem_map.mp hi
        exact hle e' he'

-- Which entries a start accepts.
theorem start_ok_iff (s : Scheduler) (entries : List Sentinel) (now : Nat) :
    (∃ report, (s.start entries now).1 = .ok report) ↔ s.running = false ∧
      (∃ e ∈ entries, e.tasks ≠ [] ∧ e.subscribers ≠ []) ∧
      ∀ e ∈ entries, e.tasks ≠ [] → e.subscribers ≠ [] → e.interval ≠ 0 := by
  have hchosen : ∀ e, e ∈ entries.filter Sentinel.isActive ↔
      e ∈ entries ∧ e.tasks ≠ [] ∧ e.subscribers ≠ [] := fun e => by
    rw [List.mem_filter, Sentinel.isActive_iff]
  have hstarted := s.started entries now
  generalize s.start entries now = out at hstarted
  cases hstarted with
  | early hrunning =>
      constructor
      · rintro ⟨report, hreport⟩
        cases hreport
      · rintro ⟨hidle, -⟩
        rw [hrunning] at hidle
        cases hidle
  | idle hidle hnone =>
      constructor
      · rintro ⟨report, hreport⟩
        cases hreport
      · rintro ⟨-, ⟨e, he, hactive⟩, -⟩
        have hmem := (hchosen e).mpr ⟨he, hactive⟩
        rw [hnone] at hmem
        cases hmem
  | @restless hidle e he =>
      constructor
      · rintro ⟨report, hreport⟩
        cases hreport
      · rintro ⟨-, -, hall⟩
        obtain ⟨hmem, htasks, hsubscribers⟩ := (hchosen e).mp (List.mem_of_find?_eq_some he)
        have hzero : e.interval = 0 := by simpa using List.find?_some he
        exact absurd hzero (hall e hmem htasks hsubscribers)
  | made hidle hsome hall =>
      refine ⟨fun _ => ⟨hidle, ?_, fun e he htasks hsubscribers => ?_⟩, fun _ => ⟨_, rfl⟩⟩
      · obtain ⟨e, he⟩ := List.exists_mem_of_ne_nil _ hsome
        exact ⟨e, (hchosen e).mp he⟩
      · exact hall e ((hchosen e).mpr ⟨he, htasks, hsubscribers⟩)

end Scheduler

namespace Node

open Scheduler

variable {n : Node}

-- A node whose scheduler is coherent and has the first or the next tick of its run before it, and
-- no other; what is left of earlier runs are executions and idle ticks.
structure Coherent (n : Node) : Prop where
  scheduler : n.scheduler.Coherent
  past : n.NoFuture
  ticks : n.tasks.countP (Task.isTickOf n.scheduler.epoch) = if n.scheduler.running then 1 else 0

theorem coherent_new (context : Context) (source : Source) (relay : Relay) :
    (Node.new context source relay).Coherent :=
  ⟨Scheduler.coherent_new, fun _ ht => absurd ht List.not_mem_nil, rfl⟩

-- A tick that is not of a later run than the present one is not there yet.
theorem NoFuture.countP_eq_zero (h : n.NoFuture) :
    n.tasks.countP (Task.isTickOf (n.scheduler.epoch + 1)) = 0 := by
  refine List.countP_eq_zero.mpr fun t ht htick => ?_
  have hle := h t ht (n.scheduler.epoch + 1) (by rw [Task.eq_tick_of_isTickOf htick]; rfl)
  exact Nat.not_succ_le_self _ hle

-- A task that runs neither begins nor ends a run.
theorem run_perform (place : Nat) :
    (n.after (.perform place)).scheduler.running = n.scheduler.running ∧
      (n.after (.perform place)).scheduler.epoch = n.scheduler.epoch := by
  cases hplace : n.ready[place]? with
  | none => rw [after_perform_none hplace]; exact ⟨rfl, rfl⟩
  | some t =>
      obtain ⟨c, hturn, -, hafter⟩ := exists_turn hplace
      rw [hafter]
      change c.scheduler.running = _ ∧ c.scheduler.epoch = _
      obtain ⟨epoch, -, -, hscan, -⟩ | ⟨e, r, -, hconclude, -⟩ | ⟨-, hsame, -⟩ :=
        hturn.live_cases hplace
      · rw [hscan]
        exact ⟨rfl, rfl⟩
      · rw [hconclude]
        exact conclude_run ..
      · rw [hsame]
        exact ⟨rfl, rfl⟩

-- Nothing but a start begins a run, and nothing but a stop and a drop end one.
theorem running_after (n : Node) (h : Happening) :
    (n.after h).scheduler.running = true ↔
      (∃ entries report, h = .start entries ∧ (n.start entries).1 = .ok report) ∨
      n.scheduler.running = true ∧ h.keepsRunning = true := by
  cases h with
  | perform place => simp [(run_perform place).1, Happening.keepsRunning]
  | wake place => simp [scheduler_wake, Happening.keepsRunning]
  | start entries =>
      cases hout : (n.start entries).1 with
      | error f => simp [after, start_of_error hout, Happening.keepsRunning, hout]
      | ok report => simp [after, (start_ok (start_scheduler hout)).1, hout]
  | stop => simp [after, Node.stop, stop_running, Happening.keepsRunning]
  | drop => simp [after, Node.drop, Scheduler.drop, Happening.keepsRunning]
  | listen l => simp [after, Node.listen, Scheduler.listen, Happening.keepsRunning]
  | elapse | supply | relink => simp [after, Happening.keepsRunning]

-- A tick of the present run leaves the next one behind and all others go without one.
theorem countP_isTickOf_perform {era : Nat} (hcurrent : n.scheduler.isCurrent era = true)
    (place : Nat) : (n.after (.perform place)).tasks.countP (Task.isTickOf era) =
      n.tasks.countP (Task.isTickOf era) := by
  have hrunning := (isCurrent_iff.mp hcurrent).1
  by_cases htick : n.ready[place]? = some (.tick era)
  · obtain ⟨c, hturn, -, hafter⟩ := exists_turn htick
    have hcollect : ∀ es : List Execution,
        (es.map Task.collect).countP (Task.isTickOf era) = 0 := by
      intro es
      refine List.countP_eq_zero.mpr fun t ht => ?_
      obtain ⟨e, -, rfl⟩ := List.mem_map.mp ht
      exact Bool.false_ne_true
    have hspawned : c.spawned.countP (Task.isTickOf era) = 1 := by
      cases hturn with
      | idle hidle => rw [hcurrent] at hidle; cases hidle
      | scan =>
          rw [Change.spawned, List.countP_append, hcollect]
          simp [Task.isTickOf]
      | succeed source hend => cases hend
      | fail source hend => cases hend
    rw [hafter, (tasks_change place c).countP_eq, List.countP_append, hspawned,
      (tasks_perm htick).countP_eq, List.countP_cons_of_pos (by simp [Task.isTickOf])]
  · refine countP_isTickOf_after hrunning rfl fun place' hplace' => ?_
    cases hplace'
    exact htick

-- Without a run no tick is left behind.
theorem countP_isTickOf_idle {era : Nat} (hidle : n.scheduler.running = false)
    (hnone : n.tasks.countP (Task.isTickOf era) = 0) (place : Nat) :
    (n.after (.perform place)).tasks.countP (Task.isTickOf era) = 0 := by
  refine List.countP_eq_zero.mpr fun t ht htick => ?_
  obtain hold | ⟨place', t', due, -, -, hspawns⟩ | ⟨entries, hstart, -⟩ := mem_tasks_after ht
  · exact List.countP_eq_zero.mp hnone t hold htick
  · rw [Task.eq_tick_of_isTickOf htick] at hspawns
    cases hspawns with
    | again hcurrent => simp [isCurrent, hidle] at hcurrent
  · cases hstart

theorem Coherent.start (h : n.Coherent) (entries : List Sentinel) :
    (n.after (.start entries)).Coherent := by
  refine ⟨h.scheduler.step (step_after rfl), h.past.after _, ?_⟩
  cases hout : (n.start entries).1 with
  | error f =>
      have hsame : n.after (.start entries) = n := start_of_error hout
      rw [hsame]
      exact h.ticks
  | ok report =>
      obtain ⟨hrunning, hepoch, -⟩ := start_ok (start_scheduler hout)
      change (n.start entries).2.tasks.countP (Task.isTickOf (n.start entries).2.scheduler.epoch) =
        if (n.start entries).2.scheduler.running then 1 else 0
      rw [hrunning, hepoch]
      exact countP_isTickOf_start hout h.past.countP_eq_zero

theorem Coherent.stop (h : n.Coherent) : (n.after .stop).Coherent := by
  refine ⟨h.scheduler.stop, h.past.after _, ?_⟩
  cases hrunning : n.scheduler.running with
  | true =>
      have hstop : n.scheduler.stop.2.running = false ∧
          n.scheduler.stop.2.epoch = n.scheduler.epoch + 1 := by
        simp [Scheduler.stop, hrunning]
      change n.tasks.countP (Task.isTickOf n.scheduler.stop.2.epoch) =
        if n.scheduler.stop.2.running then 1 else 0
      rw [hstop.1, hstop.2]
      exact h.past.countP_eq_zero
  | false =>
      have hsame : n.after .stop = n := by simp [Node.after, Node.stop, Scheduler.stop, hrunning]
      rw [hsame]
      exact h.ticks

theorem Coherent.after (h : n.Coherent) {happening : Happening} (hdrop : happening ≠ .drop) :
    (n.after happening).Coherent := by
  have hstep (hkeep : happening.keepsRunning = true) :
      (n.after happening).scheduler.Coherent := h.scheduler.step (step_after hkeep)
  cases happening with
  | perform place =>
      refine ⟨hstep rfl, h.past.after _, ?_⟩
      obtain ⟨hrunning, hepoch⟩ := run_perform (n := n) place
      have hticks := h.ticks
      rw [hrunning, hepoch]
      cases hrun : n.scheduler.running with
      | true =>
          rw [hrun] at hticks
          rw [countP_isTickOf_perform (by simp [isCurrent, hrun]), hticks]
      | false =>
          rw [hrun] at hticks
          exact countP_isTickOf_idle hrun hticks place
  | wake place =>
      refine ⟨hstep rfl, h.past.after _, ?_⟩
      rw [scheduler_wake, (tasks_wake place).countP_eq]
      exact h.ticks
  | start entries => exact h.start entries
  | stop => exact h.stop
  | drop => exact absurd rfl hdrop
  | elapse | listen | supply | relink => exact ⟨hstep rfl, h.past.after _, h.ticks⟩

theorem Coherent.follow (h : n.Coherent) {hs : List Happening} (hhs : .drop ∉ hs) :
    (n.follow hs).Coherent := by
  induction hs using List.reverseRecOn with
  | nil => exact h
  | append_singleton hs happening ih =>
      rw [List.mem_append, not_or] at hhs
      rw [follow_concat]
      exact (ih hhs.1).after fun hdrop => hhs.2 (hdrop ▸ List.mem_singleton_self _)

theorem start_fst (n : Node) (entries : List Sentinel) :
    (n.start entries).1 = (n.scheduler.start entries n.clock).1 := by
  rw [Node.start_eq]
  split <;> rename_i heq <;> rw [heq]

-- What a start adds to a node.
theorem start_node {entries : List Sentinel} {report : StartReport}
    (h : (n.start entries).1 = .ok report) :
    (n.start entries).2 = { n with
      scheduler := (n.start entries).2.scheduler
      ready := n.ready ++ [.tick (n.start entries).2.scheduler.epoch] } := by
  have hstart := start_scheduler h
  generalize (n.start entries).2.scheduler = s at hstart
  rw [Node.start_eq, hstart]

theorem status_jobNew (id : Nat) (e : Sentinel) (now : Nat) :
    (Job.new id e now).status now = ⟨id, 0,
      if e.isUnbounded then none else some e.count.toInt.toNat, seconds e.interval, 0, false⟩ := by
  simp [Job.status, Job.new]

-- However a node was started, stopped and at work before, a start is accepted if there is no run
-- and somebody has something to do at intervals that are not nothing. If it is refused nothing
-- changes, so that everything later goes on as if it had not been tried; the reasons are looked for
-- one after the other. If it is accepted there is a job for each entry with tasks and subscribers,
-- numbered in their order, idle and due at once, and the first tick is ready; what was at work
-- before stays at work. And at all times the parts of the scheduler fit together, so that without a
-- run no job is active.
theorem start_atomic (context : Context) (source : Source) (relay : Relay)
    {past : List Happening} (hpast : .drop ∉ past) (entries : List Sentinel) :
    let n := (Node.new context source relay).follow past
    let chosen := entries.filter Sentinel.isActive
    let out := n.start entries
    (n.Coherent ∧ (n.scheduler.running = false → n.status = [])) ∧
    ((∃ report, out.1 = .ok report) ↔ n.scheduler.running = false ∧
      (∃ e ∈ entries, e.tasks ≠ [] ∧ e.subscribers ≠ []) ∧
      ∀ e ∈ entries, e.tasks ≠ [] → e.subscribers ≠ [] → e.interval ≠ 0) ∧
    (∀ f, out.1 = .error f →
      ((n.scheduler.running = true ∧ f = .scheduler "scheduler already running") ∨
        (n.scheduler.running = false ∧ chosen = [] ∧ f = .noActiveJobs) ∨
        (n.scheduler.running = false ∧ ∃ e, chosen.find? (fun e => e.interval == 0) = some e ∧
          f = zeroInterval e.tasks)) ∧
      out.2 = n ∧ ∀ later, n.follow (.start entries :: later) = n.follow later) ∧
    ∀ report, out.1 = .ok report →
      report.jobs = chosen.length ∧ report.jobs + report.dropped = entries.length ∧
      (chosen.map fun e => seconds e.interval).min? = some report.tick ∧
      out.2.scheduler.active = (chosen.mapIdx fun id e => Job.new id e n.clock) ∧
      out.2.status = (chosen.mapIdx fun id e =>
        ⟨id, 0, if e.isUnbounded then none else some e.count.toInt.toNat, seconds e.interval, 0,
          false⟩) ∧
      out.2.scheduler.running = true ∧ out.2.scheduler.period = some report.tick ∧
      out.2.clock = n.clock ∧ out.2.ready = n.ready ++ [.tick out.2.scheduler.epoch] ∧
      out.2.asleep = n.asleep ∧ out.2.live = n.live := by
  intro n chosen out
  have hcoherent : n.Coherent := (coherent_new context source relay).follow hpast
  refine ⟨⟨hcoherent, fun hidle => ?_⟩, ?_, fun f hf => ?_, fun report hreport => ?_⟩
  · rw [status, Scheduler.status, (hcoherent.scheduler.idle hidle).1]
    rfl
  · change (∃ report, (n.start entries).1 = .ok report) ↔ _
    rw [start_fst]
    exact start_ok_iff n.scheduler entries n.clock
  · have hsame : out.2 = n := start_of_error hf
    exact ⟨start_refused ((start_fst n entries).symm.trans hf), hsame,
      fun later => congrArg (·.follow later) hsame⟩
  · have hnode : out.2 = _ := start_node hreport
    have hstart := start_scheduler hreport
    obtain ⟨hjobs, hsum, hshortest⟩ := start_report hstart
    have hactive : out.2.scheduler.active = chosen.mapIdx fun id e => Job.new id e n.clock :=
      start_active hstart
    refine ⟨hjobs, hsum, hshortest, hactive, ?_, (start_ok hstart).1, (start_period hstart).1,
      by rw [hnode], by rw [hnode], by rw [hnode], ?_⟩
    · have hclock : out.2.clock = n.clock := by rw [hnode]
      rw [status, Scheduler.status, hactive, hclock]
      refine List.ext_getElem (by simp) fun id _ _ => ?_
      simp only [List.getElem_map, List.getElem_mapIdx, status_jobNew]
    · rw [hnode]
      simp only [live, tasks, List.append_assoc, List.filterMap_append]
      rfl

-- A start too many, a stop while a collection is at work and a start with nothing to do leave no
-- trace in the run after them.
theorem start_atomic_again :
    let hourly : Sentinel := ⟨[.cpu], [⟨"http://north", .http, none⟩], -1, 3600, []⟩
    let twice : Sentinel := ⟨[.process], [⟨"http://south", .prometheus, none⟩], 2, 3, []⟩
    let aside : Sentinel := ⟨[], [⟨"http://south", .http, none⟩], -1, 0, []⟩
    let past : List Happening :=
      [.start [hourly], .start [twice], .perform 0, .stop, .start [aside]]
    let n := (Node.new ⟨"north", 1000, false⟩ .idle (.new (.make 5 60000))).follow past
    .drop ∉ past ∧ (n.start [hourly, aside, twice]).1 = .ok ⟨2, 1, 3000⟩ ∧
      (n.start [hourly, aside, twice]).2.status =
        [⟨0, 0, none, 3600000, 0, false⟩, ⟨1, 0, some 2, 3000, 0, false⟩] := by
  intro hourly twice aside past n
  have hpast : .drop ∉ past := by simp [past]
  have hreport : (n.start [hourly, aside, twice]).1 = .ok ⟨2, 1, 3000⟩ := rfl
  obtain ⟨-, -, -, -, hstatus, -⟩ :=
    (start_atomic _ _ _ hpast [hourly, aside, twice]).2.2.2 _ hreport
  refine ⟨hpast, hreport, hstatus.trans ?_⟩
  decide +kernel +zetaReduce

end Node

end MetricRelay
