import MetricRelay.Proofs.Scheduling.RunLimit
import MetricRelay.Proofs.Scheduling.Turn

namespace MetricRelay

-- The job that an execution belongs to, told apart from those of other runs of its node.
def Execution.owner (e : Execution) : Nat × Nat :=
  (e.epoch, e.job.id)

namespace Scheduler

-- How the executions that are not over stand to the active jobs: no two belong to the same job, and
-- exactly the jobs in flight have one.
structure SingleFlight (s : Scheduler) (live : List Execution) : Prop where
  past : ∀ e ∈ live, e.epoch ≤ s.epoch
  ids : (s.active.map Job.id).Nodup
  alone : (live.map Execution.owner).Nodup
  inFlight : s.running = true → ∀ j ∈ s.active,
    (j.inFlight = true ↔ (s.epoch, j.id) ∈ live.map Execution.owner)

variable {s s' : Scheduler} {live live' : List Execution}

theorem SingleFlight.perm (h : s.SingleFlight live) (hperm : live.Perm live') :
    s.SingleFlight live' where
  past e he := h.past e (hperm.mem_iff.mpr he)
  ids := h.ids
  alone := (hperm.map _).nodup_iff.mp h.alone
  inFlight hrunning j hj := by
    rw [h.inFlight hrunning j hj]
    exact (hperm.map _).mem_iff

theorem mem_live_owners {epoch id : Nat} :
    (epoch, id) ∈ live.map Execution.owner ↔ ∃ e ∈ live, e.epoch = epoch ∧ e.job.id = id := by
  simp only [List.mem_map, Execution.owner, Prod.mk.injEq]

-- The jobs of a new run have had no time for an execution.
theorem SingleFlight.start (h : s.SingleFlight live) {entries : List Sentinel} {now : Nat}
    {report : StartReport} (hstart : s.start entries now = (.ok report, s')) :
    s'.SingleFlight live := by
  obtain ⟨-, hepoch, hactive⟩ := start_ok hstart
  refine ⟨?_, ?_, h.alone, ?_⟩
  · intro e he
    have := h.past e he
    omega
  · rw [hactive, map_id_jobsFrom]
    exact List.nodup_range'
  · intro _ j hj
    have hidle : j.inFlight = false := by
      rw [hactive, jobsFrom_eq] at hj
      obtain ⟨i, hi, rfl⟩ := List.mem_mapIdx.mp hj
      rfl
    have hnone : (s'.epoch, j.id) ∉ live.map Execution.owner := by
      rw [mem_live_owners]
      rintro ⟨e, he, hepoch', -⟩
      have := h.past e he
      omega
    simp [hidle, hnone]

theorem SingleFlight.stop (h : s.SingleFlight live) : s.stop.2.SingleFlight live := by
  unfold Scheduler.stop
  split
  · refine ⟨?_, List.nodup_nil, h.alone, nofun⟩
    intro e he
    exact Nat.le_succ_of_le (h.past e he)
  · exact h

theorem SingleFlight.drop (h : s.SingleFlight live) : s.drop.SingleFlight live :=
  { h with inFlight := nofun }

theorem owner_dispatched (s : Scheduler) (now : Nat) :
    (s.scan now).1.map Execution.owner =
      (s.active.filter (·.isIdleDue now)).map fun j => (s.epoch, j.id) := by
  rw [scan_executions, List.map_map]
  rfl

theorem visited_id (j : Job) (now : Nat) :
    (if j.isIdleDue now then j.begun else j).id = j.id := by
  split <;> rfl

-- A job that stays after a tick is one that was there before, begun if it was due and idle.
theorem mem_scan_active {now : Nat} {j' : Job} (h : j' ∈ (s.scan now).2.active) :
    ∃ j ∈ s.active, j' = if j.isIdleDue now then j.begun else j := by
  rw [scan_active, List.mem_filterMap] at h
  obtain ⟨j, hj, hstays⟩ := h
  refine ⟨j, hj, ?_⟩
  rw [visit_eq] at hstays
  split at hstays
  · rename_i hdue
    split at hstays
    · cases hstays
    · rw [if_pos hdue]
      exact (Option.some.inj hstays).symm
  · rename_i hdue
    rw [if_neg hdue]
    exact (Option.some.inj hstays).symm

-- A tick dispatches nothing of a job that is not due or in flight.
theorem ne_of_mem_scan {now id : Nat}
    (h : ∀ j ∈ s.active, j.id = id → j.isIdleDue now = false) {e : Execution}
    (he : e ∈ (s.scan now).1) : e.job.id ≠ id := by
  intro hid
  have hmem := List.mem_map_of_mem (f := (·.job.id)) he
  rw [(scan_ids s now).1, hid, List.mem_map] at hmem
  obtain ⟨j, hj, hid'⟩ := hmem
  obtain ⟨hj, hdue⟩ := List.mem_filter.mp hj
  rw [h j hj hid'] at hdue
  cases hdue

theorem SingleFlight.scan (h : s.SingleFlight live) (hrunning : s.running = true) (now : Nat) :
    (s.scan now).2.SingleFlight (live ++ (s.scan now).1) := by
  have hnew : ∀ j ∈ s.active,
      ((s.epoch, j.id) ∈ (s.scan now).1.map Execution.owner ↔ j.isIdleDue now = true) := by
    intro j hj
    simp only [owner_dispatched, List.mem_map, List.mem_filter, Prod.mk.injEq, true_and]
    constructor
    · rintro ⟨i, ⟨hi, hdue⟩, hid⟩
      rwa [List.inj_on_of_nodup_map h.ids hi hj hid] at hdue
    · intro hdue
      exact ⟨j, ⟨hj, hdue⟩, rfl⟩
  refine ⟨?_, ?_, ?_, ?_⟩
  · intro e he
    rcases List.mem_append.mp he with he | he
    · exact h.past e he
    · obtain ⟨j, -, rfl⟩ := exists_of_mem_scan he
      exact Nat.le_refl _
  · rw [(scan_ids s now).2]
    exact h.ids.sublist (List.filter_sublist.map _)
  · rw [List.map_append]
    refine List.nodup_append'.mpr ⟨h.alone, ?_, ?_⟩
    · have hids : ((s.active.filter (·.isIdleDue now)).map Job.id).Nodup :=
        h.ids.sublist (List.filter_sublist.map _)
      have howners := hids.map fun a b (hab : (s.epoch, a) = (s.epoch, b)) => (Prod.mk.inj hab).2
      rw [owner_dispatched]
      rwa [List.map_map] at howners
    · -- what is dispatched was idle, so nothing of it was live
      intro owner hold hmore
      rw [owner_dispatched, List.mem_map] at hmore
      obtain ⟨j, hj, rfl⟩ := hmore
      obtain ⟨hj, hdue⟩ := List.mem_filter.mp hj
      have hflight := (h.inFlight hrunning j hj).mpr hold
      simp [Job.isIdleDue, hflight] at hdue
  · intro _ j' hj'
    obtain ⟨j, hj, rfl⟩ := mem_scan_active hj'
    rw [visited_id, List.map_append, List.mem_append]
    change _ ↔ (s.epoch, j.id) ∈ _ ∨ (s.epoch, j.id) ∈ _
    rw [hnew j hj, ← h.inFlight hrunning j hj]
    by_cases hdue : j.isIdleDue now = true
    · simp [hdue, Job.begun]
    · simp [hdue]

-- The end of an execution sets its job free, if it belongs to the present run.
theorem apply_inFlight (r : Result) (advanceOnFailure : Bool) (now : Nat) (j : Job) :
    (r.apply advanceOnFailure now j).inFlight = false ∧
      (r.apply advanceOnFailure now j).id = j.id := by
  cases r with
  | failure => cases advanceOnFailure <;> exact ⟨rfl, rfl⟩
  | success | panic => exact ⟨rfl, rfl⟩

theorem mem_conclude_active {advanceOnFailure : Bool} {now : Nat} {e : Execution} {r : Result}
    (hcurrent : s.isCurrent e.epoch = true) {j' : Job}
    (h : j' ∈ (s.conclude advanceOnFailure now e r).active) :
    ∃ j ∈ s.active, j' = if j.id = e.job.id then r.apply advanceOnFailure now j else j := by
  simp only [Scheduler.conclude, hcurrent, if_true, update, List.mem_map] at h
  obtain ⟨j, hj, rfl⟩ := h
  exact ⟨j, hj, rfl⟩

theorem conclude_ids (advanceOnFailure : Bool) (now : Nat) (e : Execution) (r : Result) :
    (s.conclude advanceOnFailure now e r).active.map Job.id = s.active.map Job.id := by
  unfold Scheduler.conclude
  split
  · rw [update, List.map_map]
    refine List.map_congr_left fun j _ => ?_
    simp only [Function.comp_apply]
    split
    · exact (apply_inFlight r advanceOnFailure now j).2
    · rfl
  · rfl

theorem conclude_run (advanceOnFailure : Bool) (now : Nat) (e : Execution) (r : Result) :
    (s.conclude advanceOnFailure now e r).running = s.running ∧
      (s.conclude advanceOnFailure now e r).epoch = s.epoch := by
  unfold Scheduler.conclude
  split <;> exact ⟨rfl, rfl⟩

theorem SingleFlight.conclude {e : Execution} (h : s.SingleFlight (e :: live))
    (advanceOnFailure : Bool) (now : Nat) (r : Result) :
    (s.conclude advanceOnFailure now e r).SingleFlight live := by
  have halone := List.nodup_cons.mp h.alone
  obtain ⟨hsameRunning, hsameEpoch⟩ := conclude_run (s := s) advanceOnFailure now e r
  refine ⟨?_, ?_, halone.2, ?_⟩
  · intro e' he'
    rw [hsameEpoch]
    exact h.past e' (List.mem_cons_of_mem e he')
  · rw [conclude_ids]
    exact h.ids
  · intro hrunning j' hj'
    rw [hsameRunning] at hrunning
    rw [hsameEpoch]
    by_cases hepoch : s.epoch = e.epoch
    · have hcurrent : s.isCurrent e.epoch = true := by simp [isCurrent, hrunning, hepoch]
      obtain ⟨j, hj, rfl⟩ := mem_conclude_active hcurrent hj'
      by_cases hid : j.id = e.job.id
      · have howner : (s.epoch, j.id) = e.owner := by rw [hepoch, hid]; rfl
        rw [if_pos hid, (apply_inFlight r advanceOnFailure now j).1,
          (apply_inFlight r advanceOnFailure now j).2, howner]
        simp [halone.1]
      · have howner : (s.epoch, j.id) ≠ e.owner := fun heq => hid (Prod.mk.inj heq).2
        rw [if_neg hid, h.inFlight hrunning j hj, List.map_cons, List.mem_cons]
        simp [howner]
    · have hcurrent : s.isCurrent e.epoch = false := by simp [isCurrent, hepoch]
      simp only [Scheduler.conclude, hcurrent, Bool.false_eq_true, if_false] at hj'
      have howner : (s.epoch, j'.id) ≠ e.owner := fun heq => hepoch (Prod.mk.inj heq).1
      rw [h.inFlight hrunning j' hj', List.map_cons, List.mem_cons]
      simp [howner]

end Scheduler

namespace Node

open Scheduler

variable {n : Node}

theorem singleFlight_new (context : Context) (source : Source) (relay : Relay) :
    (Node.new context source relay).scheduler.SingleFlight (Node.new context source relay).live :=
  ⟨nofun, List.nodup_nil, List.nodup_nil, nofun⟩

private theorem singleFlight_perform (h : n.scheduler.SingleFlight n.live) (place : Nat) :
    (n.after (.perform place)).scheduler.SingleFlight (n.after (.perform place)).live := by
  cases hplace : n.ready[place]? with
  | none => rwa [after_perform_none hplace]
  | some t =>
      obtain ⟨c, hturn, -, hafter⟩ := exists_turn hplace
      have hscheduler : (n.change place c).scheduler = c.scheduler := rfl
      rw [hafter, hscheduler]
      obtain ⟨epoch, -, hcurrent, hscan, hlive⟩ | ⟨e, r, -, hconclude, hlive⟩ |
        ⟨-, hsame, hlive⟩ :=
        hturn.live_cases hplace
      · have hrunning := (isCurrent_iff.mp hcurrent).1
        rw [hscan]
        exact (h.scan hrunning n.clock).perm (List.perm_append_comm.trans hlive.symm)
      · rw [hconclude]
        exact (h.perm hlive).conclude _ _ r
      · rw [hsame]
        exact h.perm hlive.symm

theorem singleFlight_after (h : n.scheduler.SingleFlight n.live) (happening : Happening) :
    (n.after happening).scheduler.SingleFlight (n.after happening).live := by
  cases happening with
  | perform place => exact singleFlight_perform h place
  | wake place =>
      rw [scheduler_wake]
      exact h.perm ((tasks_wake place).symm.filterMap Task.work?)
  | start entries =>
      obtain ⟨report, s, hstart, hafter⟩ | hafter := after_start_cases n entries
      · have hlive : live { n with scheduler := s, ready := n.ready ++ [.tick s.epoch] } =
            n.live := by
          simp only [live, tasks, List.append_assoc, List.filterMap_append]
          rfl
        rw [hafter, hlive]
        exact h.start hstart
      · rwa [hafter]
  | stop => exact h.stop
  | drop => exact h.drop
  | listen l => exact { h with }
  | elapse | supply | relink => exact h

theorem singleFlight_follow (h : n.scheduler.SingleFlight n.live) (hs : List Happening) :
    (n.follow hs).scheduler.SingleFlight (n.follow hs).live := by
  induction hs using List.reverseRecOn with
  | nil => exact h
  | append_singleton hs happening ih =>
      rw [follow_concat]
      exact singleFlight_after ih happening

private theorem run_after_perform {place : Nat} {t : Task} (h : n.ready[place]? = some t) :
    (n.after (.perform place)).scheduler.running = n.scheduler.running := by
  obtain ⟨c, hturn, -, hafter⟩ := exists_turn h
  rw [hafter]
  change c.scheduler.running = n.scheduler.running
  obtain ⟨epoch, -, -, hscan, -⟩ | ⟨e, r, -, hconclude, -⟩ | ⟨-, hsame, -⟩ := hturn.live_cases h
  · rw [hscan]
    rfl
  · rw [hconclude]
    exact (conclude_run ..).1
  · rw [hsame]

-- The task that ends an execution takes it away.
private theorem owner_notMem_of_ending? (h : n.scheduler.SingleFlight n.live) {place : Nat}
    {t : Task} {e : Execution} {r : Result} (hplace : n.ready[place]? = some t)
    (hend : n.ending? t = some (e, r)) :
    e.owner ∉ (n.after (.perform place)).live.map Execution.owner := by
  obtain ⟨c, hturn, -, hafter⟩ := exists_turn hplace
  rw [hafter]
  obtain ⟨epoch, rfl, -, -, -⟩ | ⟨e', r', hend', -, hlive⟩ | ⟨hnone, -, -⟩ :=
    hturn.live_cases hplace
  · cases hend
  · rw [hend] at hend'
    cases hend'
    exact (List.nodup_cons.mp ((hlive.map _).nodup_iff.mp h.alone)).1
  · rw [hnone] at hend
    cases hend

-- A tick leaves a job alone that is in flight.
theorem perform_tick_inFlight {place epoch : Nat} (hplace : n.ready[place]? = some (.tick epoch))
    (hids : (n.scheduler.active.map Job.id).Nodup) {j : Job} (hj : j ∈ n.scheduler.active)
    (hflight : j.inFlight = true) :
    j ∈ (n.after (.perform place)).scheduler.active ∧
      ∀ e ∈ n.dispatched (.perform place), e.job.id ≠ j.id := by
  have hbusy : j.isIdleDue n.clock = false := by simp [Job.isIdleDue, hflight]
  cases hcurrent : n.scheduler.isCurrent epoch with
  | true =>
      obtain ⟨hdispatched, hscheduler⟩ := perform_tick hplace hcurrent
      rw [hdispatched, hscheduler]
      constructor
      · rw [scan_active, List.mem_filterMap]
        refine ⟨j, hj, ?_⟩
        simp [visit_eq, hbusy]
      · refine fun e he => ne_of_mem_scan (fun i hi hid => ?_) he
        rw [List.inj_on_of_nodup_map hids hi hj hid, hbusy]
  | false =>
      simp only [dispatched, woken, after, hplace, step, perform, ticking, hcurrent,
        Bool.false_eq_true, if_false]
      exact ⟨hj, fun _ he => absurd he List.not_mem_nil⟩

-- In every state that a node can get to while its scheduler runs, no two executions belong to the
-- same job, and the jobs in flight are those that have one. A tick passes such a job over and
-- leaves it as it is. However the collection of an execution ends, the execution is over and its
-- job idle, to be dispatched by the first tick that finds it due; deliveries do not matter. So all
-- jobs are idle when no execution is left.
theorem one_execution_per_job (context : Context) (source : Source) (relay : Relay)
    (hs : List Happening)
    (hrunning : ((Node.new context source relay).follow hs).scheduler.running = true) :
    let n := (Node.new context source relay).follow hs
    (n.live.map Execution.owner).Nodup ∧
    (∀ j ∈ n.scheduler.active,
      (j.inFlight = true ↔ ∃ e ∈ n.live, e.epoch = n.scheduler.epoch ∧ e.job.id = j.id)) ∧
    (∀ place epoch, n.ready[place]? = some (.tick epoch) →
      ∀ j ∈ n.scheduler.active, j.inFlight = true →
        j ∈ (n.after (.perform place)).scheduler.active ∧
          ∀ e ∈ n.dispatched (.perform place), e.job.id ≠ j.id) ∧
    (∀ place t e r, n.ready[place]? = some t → n.ending? t = some (e, r) →
      let m := n.after (.perform place)
      e ∉ m.live ∧ ∀ j ∈ m.scheduler.active, e.epoch = m.scheduler.epoch → j.id = e.job.id →
        j.inFlight = false ∧
          ∀ now, j.isDue now = true → ∃ e' ∈ (m.scheduler.scan now).1, e'.job.id = j.id) ∧
    (n.live = [] → ∀ j ∈ n.scheduler.active, j.inFlight = false) := by
  intro n
  have h : n.scheduler.SingleFlight n.live := singleFlight_follow (singleFlight_new ..) hs
  have hflights : ∀ j ∈ n.scheduler.active,
      (j.inFlight = true ↔ ∃ e ∈ n.live, e.epoch = n.scheduler.epoch ∧ e.job.id = j.id) := by
    intro j hj
    rw [h.inFlight hrunning j hj, mem_live_owners]
  refine ⟨h.alone, hflights, ?_, ?_, ?_⟩
  · intro place epoch hplace j hj hflight
    exact perform_tick_inFlight hplace h.ids hj hflight
  · intro place t e r hplace hend m
    have hafter : m.scheduler.SingleFlight m.live := singleFlight_after h (.perform place)
    have hover : e.owner ∉ m.live.map Execution.owner := owner_notMem_of_ending? h hplace hend
    refine ⟨fun he => hover (List.mem_map_of_mem he), ?_⟩
    intro j hj hepoch hid
    have hidle : j.inFlight = false := by
      have hrunning' : m.scheduler.running = true := by
        rw [← hrunning]
        exact run_after_perform hplace
      have howner : (m.scheduler.epoch, j.id) = e.owner := by rw [← hepoch, hid]; rfl
      rw [← Bool.not_eq_true, hafter.inFlight hrunning' j hj, howner]
      exact hover
    refine ⟨hidle, fun now hdue => ?_⟩
    have hmem : j.id ∈ (m.scheduler.scan now).1.map (·.job.id) := by
      rw [(scan_ids m.scheduler now).1]
      refine List.mem_map_of_mem (List.mem_filter.mpr ⟨hj, ?_⟩)
      simp [Job.isIdleDue, hdue, hidle]
    exact List.mem_map.mp hmem
  · intro hnone j hj
    rw [← Bool.not_eq_true, hflights j hj, hnone]
    nofun

-- A job whose readings are half a minute apart is passed over by the tick a second after its start.
theorem one_execution_per_job_busy :
    let entry : Sentinel := ⟨[.cpu], [⟨"http://north", .http, none⟩], -1, 1, []⟩
    let hs : List Happening := [.start [entry], .perform 0, .perform 0, .elapse 1000, .wake 0]
    let n := (Node.new ⟨"north", 30000, false⟩ .idle (.new (.make 5 60000))).follow hs
    n.scheduler.running = true ∧ n.scheduler.active.map (·.inFlight) = [true] ∧
      n.live.map Execution.owner = [(1, 0)] ∧
      ∀ j ∈ n.scheduler.active, j ∈ (n.after (.perform 0)).scheduler.active ∧
        ∀ e ∈ n.dispatched (.perform 0), e.job.id ≠ j.id := by
  intro entry hs n
  have hn : (Node.new ⟨"north", 30000, false⟩ .idle (.new (.make 5 60000))).follow hs = n := rfl
  have hrunning : n.scheduler.running = true := by decide +kernel +zetaReduce
  have hflight : n.scheduler.active.map (·.inFlight) = [true] := by decide +kernel +zetaReduce
  have hplace : n.ready[0]? = some (.tick 1) := by with_unfolding_all rfl
  have htick := (one_execution_per_job _ _ _ hs hrunning).2.2.1
  rw [hn] at htick
  refine ⟨hrunning, hflight, by decide +kernel +zetaReduce, fun j hj => htick 0 1 hplace j hj ?_⟩
  have hbusy := List.mem_map_of_mem (f := (·.inFlight)) hj
  rw [hflight] at hbusy
  exact List.mem_singleton.mp hbusy

end Node

end MetricRelay
