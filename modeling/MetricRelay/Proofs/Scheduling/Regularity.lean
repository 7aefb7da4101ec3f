import MetricRelay.Proofs.Collection.FirstReadings
import MetricRelay.Proofs.Scheduling.Cutoff
import MetricRelay.Proofs.Scheduling.Schedule
import MetricRelay.Proofs.Scheduling.VirtualTime

namespace MetricRelay

namespace Scheduler

-- The time between ticks is the same for a whole run.
theorem Step.period_eq {s s' : Scheduler} {advanceOnFailure : Bool} {now : Nat}
    {es : List Execution} (h : s.Step advanceOnFailure now es s') (hrunning : s.running = true) :
    s'.period = s.period := by
  cases h with
  | rest | listen | scan => rfl
  | start hstart =>
      rw [start_eq, if_pos hrunning] at hstart
      cases hstart
  | conclude e r =>
      unfold Scheduler.conclude
      split <;> rfl

end Scheduler

namespace Node

open Scheduler

variable {n : Node}

-- The executions that a happening dispatches, and when.
def departed (n : Node) (h : Happening) : List (Nat × Execution) :=
  (n.dispatched h).map (n.clock, ·)

-- The execution whose collection a happening ends.
def finished (n : Node) : Happening → List Finish
  | .perform place =>
    match n.ready[place]? with
    | some t => ((n.ending? t).map fun r => ⟨n.clock, r.1, r.2, t.isSecond⟩).toList
    | none => []
  | _ => []

-- How a job stands when its runs have come to a phase. An idle job is due with the tick at the time
-- of its next run and not before; a run at work goes on where it should and the job is due already.
def Stands (n : Node) (era since period next : Nat) (c : Job) : Phase → Prop
  | .idle due =>
    (era, c.id) ∉ n.live.map Execution.owner ∧
    ∀ j ∈ n.scheduler.active, j.id = c.id → DueAt since period next due j.next
  | .busy t e =>
    e ∈ n.live ∧ e.epoch = era ∧ e.job.id = c.id ∧ e.job.tasks = c.tasks ∧
    OnGrid since period t ∧ t + period ≤ next ∧
    (∀ due task, (due, task) ∈ n.pending → task.work? = some e →
      (task.isSecond = false → due = t) ∧
      (task.isSecond = true → due = t + n.context.delay ∧ c.tasks.any Kind.isRate = true)) ∧
    ∀ j ∈ n.scheduler.active, j.id = c.id → j.next ≤ t

-- How a node whose time passes as it should stands after some runs of the jobs that a start made:
-- its ticks come on the grid, nothing is late, and the runs of each job have taken their course.
structure Regular (context : Context) (created : List Job) (era since period : Nat)
    (ds : List (Nat × Execution)) (xs : List Finish) (next : Nat) (n : Node) : Prop where
  context_eq : n.context = context
  accounted : Accounted created era since (ds.map (·.2)) n.scheduler
  flight : n.scheduler.SingleFlight n.live
  period_eq : n.scheduler.period = some period
  ticks : n.tasks.countP (Task.isTickOf era) = 1
  tick_due : ∀ due, (due, .tick era) ∈ n.pending → due = next
  in_time : ∀ due t, (due, t) ∈ n.pending → t.epoch? = some era → n.clock ≤ due
  next_le : next ≤ n.clock + period
  grid : OnGrid since period next
  runs : ∀ c ∈ created, ∃ phase,
    Course (c.pace context period) since (runsAt c.id ds) (endsOf (era, c.id) xs) phase ∧
      n.Stands era since period next c phase

theorem context_after (n : Node) (h : Happening) : (n.after h).context = n.context := by
  cases h with
  | perform place =>
      cases hplace : n.ready[place]? with
      | none => rw [after_perform_none hplace]
      | some t =>
          obtain ⟨c, -, -, hafter⟩ := exists_turn hplace
          rw [hafter]
          rfl
  | wake place =>
      simp only [after]
      split <;> rfl
  | start entries =>
      obtain ⟨report, s, -, hafter⟩ | hafter := after_start_cases n entries <;> rw [hafter]
  | stop | drop | listen | elapse | supply | relink => rfl

theorem context_follow (n : Node) (hs : List Happening) : (n.follow hs).context = n.context := by
  induction hs using List.reverseRecOn with
  | nil => rfl
  | append_singleton hs h ih => rw [follow_concat, context_after, ih]

theorem mem_pending_of_ready {place : Nat} {t : Task} (h : n.ready[place]? = some t) :
    (n.clock, t) ∈ n.pending :=
  List.mem_append_left _ (List.mem_map_of_mem (List.mem_of_getElem? h))

theorem map_snd_pending (n : Node) : n.pending.map (·.2) = n.tasks := by
  simp [pending, tasks, Function.comp_def]

theorem exists_mem_pending {t : Task} (h : t ∈ n.tasks) : ∃ due, (due, t) ∈ n.pending := by
  rw [← map_snd_pending] at h
  obtain ⟨⟨due, t⟩, hmem, rfl⟩ := List.mem_map.mp h
  exact ⟨due, hmem⟩

theorem mem_tasks_of_mem_pending {due : Nat} {t : Task} (h : (due, t) ∈ n.pending) :
    t ∈ n.tasks := by
  rw [← map_snd_pending]
  exact List.mem_map_of_mem (f := (·.2)) h

-- Executions with rates, and only they, come to a second half.
theorem rated_of_halfway? {e : Execution} {p : Collection.Pending} {source : Source}
    (h : n.halfway? e = some (p, source)) : e.job.tasks.any Kind.isRate = true := by
  simp only [halfway?] at h
  split at h
  · rename_i p' source' hstart
    split at h
    · cases h
    · rename_i hempty
      have hgives := Collection.gives_start n.context.node (.ofMillis n.clock) e.job.tasks
        e.job.ports n.source p' (by rw [hstart])
      rw [hgives] at hempty
      simpa using hempty
  · cases h

theorem not_rated_of_ending? {e e' : Execution} (h : n.ending? (.collect e) = some (e', .success)) :
    e.job.tasks.any Kind.isRate = false := by
  simp only [ending?] at h
  split at h
  · cases h
  · cases h
  · rename_i p' source' hstart
    split at h
    · rename_i hempty
      have hgives := Collection.gives_start n.context.node (.ofMillis n.clock) e.job.tasks
        e.job.ports n.source p' (by rw [hstart])
      rw [hgives] at hempty
      simpa using hempty
    · cases h

theorem ending?_close_ne_panic {e e' : Execution} {started : Nat} {p : Collection.Pending}
    {r : Result} (h : n.ending? (.close e started p) = some (e', r)) : r ≠ .panic := by
  simp only [ending?] at h
  split at h <;> cases h <;> decide

theorem clock_after (n : Node) (h : Happening) :
    (n.after h).clock = n.clock ∨ ∃ millis, h = .elapse millis := by
  cases h with
  | perform place =>
      cases hplace : n.ready[place]? with
      | none => exact .inl (by rw [after_perform_none hplace])
      | some t =>
          obtain ⟨c, -, -, hafter⟩ := exists_turn hplace
          exact .inl (by rw [hafter]; rfl)
  | wake place =>
      simp only [after]
      split <;> exact .inl rfl
  | start entries =>
      obtain ⟨report, s, -, hafter⟩ | hafter := after_start_cases n entries <;>
        exact .inl (by rw [hafter])
  | elapse millis => exact .inr ⟨millis, rfl⟩
  | stop | drop | listen | supply | relink => exact .inl rfl

theorem clock_le_after (n : Node) (h : Happening) : n.clock ≤ (n.after h).clock := by
  obtain hsame | ⟨millis, rfl⟩ := clock_after n h
  · exact Nat.le_of_eq hsame.symm
  · exact Nat.le_add_right _ _

theorem after_start_of_running (h : n.scheduler.running = true) (entries : List Sentinel) :
    n.after (.start entries) = n := by
  simp [after, Node.start, Scheduler.start_eq, h]

theorem Spawns.clock_le {t t' : Task} {due epoch : Nat} (h : n.Spawns t due t')
    (hepoch : t'.epoch? = some epoch) : n.clock ≤ due := by
  cases h with
  | again | half => exact Nat.le_add_right _ _
  | dispatch => exact Nat.le_refl _
  | fanOut => exact Nat.le_refl _
  | await => cases hepoch

theorem live_perform_tick {place epoch : Nat} (hplace : n.ready[place]? = some (.tick epoch))
    (hcurrent : n.scheduler.isCurrent epoch = true) :
    (n.after (.perform place)).live.Perm ((n.scheduler.scan n.clock).1 ++ n.live) := by
  obtain ⟨c, hturn, -, hafter⟩ := exists_turn hplace
  rw [hafter]
  obtain ⟨epoch', -, -, -, hlive⟩ | ⟨e, r, hend, -, -⟩ | ⟨-, -, hlive⟩ := hturn.live_cases hplace
  · exact hlive
  · cases hend
  · cases hturn with
    | idle hidle => rw [hcurrent] at hidle; cases hidle
    | scan =>
        refine (live_change place ?_).trans ((live_perm hplace).symm.append_left _)
        rw [Change.spawned, List.filterMap_append, work_collect]
        exact List.append_nil _
    | succeed source hend => cases hend
    | fail source hend => cases hend

theorem mem_pending_change {place due : Nat} {t : Task} {c : Change}
    (h : (due, t) ∈ (n.change place c).pending) :
    t ∈ n.others place ∨ (due, t) ∈ c.timed n.clock := by
  simp only [pending, change, List.map_append, List.mem_append] at h
  obtain (hready | hwoken) | hasleep | hslept := h
  · obtain ⟨t', ht', heq⟩ := List.mem_map.mp hready
    cases heq
    exact .inl (List.mem_append_left _ ht')
  · exact .inr (List.mem_append_left _ hwoken)
  · exact .inl (List.mem_append_right _ (List.mem_map_of_mem (f := (·.2)) hasleep))
  · exact .inr (List.mem_append_right _ hslept)

-- Only ticks leave ticks behind.
theorem countP_isTickOf_after {era : Nat} (hrunning : n.scheduler.running = true)
    {happening : Happening} (hkeep : happening.keepsRunning = true)
    (hother : ∀ place, happening = .perform place → n.ready[place]? ≠ some (.tick era)) :
    (n.after happening).tasks.countP (Task.isTickOf era) =
      n.tasks.countP (Task.isTickOf era) := by
  cases happening with
  | perform place =>
      cases hplace : n.ready[place]? with
      | none => rw [after_perform_none hplace]
      | some t =>
          have hne : t ≠ .tick era := fun heq => hother place rfl (heq ▸ hplace)
          have hnot : ∀ t' : Task, t' ≠ .tick era → ¬Task.isTickOf era t' = true :=
            fun t' hne' htick => hne' (Task.eq_tick_of_isTickOf htick)
          obtain ⟨c, hturn, -, hafter⟩ := exists_turn hplace
          have hspawned : c.spawned.countP (Task.isTickOf era) = 0 := by
            refine List.countP_eq_zero.mpr fun t' ht' => hnot t' ?_
            rintro rfl
            obtain ⟨due, htimed⟩ := exists_mem_timed ht' n.clock
            cases hturn.spawns htimed with
            | again => exact hne rfl
          rw [hafter, (tasks_change place c).countP_eq, (tasks_perm hplace).countP_eq,
            List.countP_append, hspawned, List.countP_cons_of_neg (hnot t hne), Nat.add_zero]
  | wake place => exact (tasks_wake place).countP_eq _
  | start entries => rw [after_start_of_running hrunning]
  | stop | drop => cases hkeep
  | listen | elapse | supply | relink => rfl

theorem punctual_perform (place : Nat) : n.Punctual (.perform place) :=
  trivial

theorem runsAt_departed (h : Happening) (id : Nat) :
    runsAt id (n.departed h) = (runsOf id (n.dispatched h)).map (n.clock, ·) := by
  rw [runsAt, departed, List.filter_map]
  rfl

theorem runsOf_map_snd (id : Nat) (ds : List (Nat × Execution)) :
    runsOf id (ds.map (·.2)) = (runsAt id ds).map (·.2) :=
  List.filter_map ..

theorem runsAt_append (id : Nat) (ds ds' : List (Nat × Execution)) :
    runsAt id (ds ++ ds') = runsAt id ds ++ runsAt id ds' :=
  List.filter_append ..

theorem endsOf_append (owner : Nat × Nat) (xs xs' : List Finish) :
    endsOf owner (xs ++ xs') = endsOf owner xs ++ endsOf owner xs' :=
  List.filter_append ..

theorem finished_eq {place : Nat} {t : Task} (hplace : n.ready[place]? = some t) :
    n.finished (.perform place) =
      ((n.ending? t).map fun r => ⟨n.clock, r.1, r.2, t.isSecond⟩).toList := by
  simp only [finished, hplace]

section

variable {context : Context} {created : List Job} {era since period next : Nat}
  {ds : List (Nat × Execution)} {xs : List Finish}

theorem Stands.later {c : Job} {phase : Phase} (h : n.Stands era since period next c phase)
    (hgrid : OnGrid since period next)
    (hlate : ∀ j ∈ n.scheduler.active, j.id = c.id → j.next ≤ next →
      (era, c.id) ∈ n.live.map Execution.owner) :
    n.Stands era since period (next + period) c phase := by
  cases phase with
  | idle due =>
      obtain ⟨hnone, hjobs⟩ := h
      refine ⟨hnone, fun j hj hid => (hjobs j hj hid).later hgrid ?_⟩
      exact Nat.lt_of_not_le fun hle => hnone (hlate j hj hid hle)
  | busy t e =>
      obtain ⟨he, hepoch, hid, htasks, ht, hbefore, hrest⟩ := h
      exact ⟨he, hepoch, hid, htasks, ht, Nat.le_add_right_of_le hbefore, hrest⟩

namespace Regular

variable (h : Regular context created era since period ds xs next n)

include h

theorem exists_tick : (next, .tick era) ∈ n.pending := by
  obtain ⟨t, ht, htick⟩ := List.countP_pos_iff.mp (h.ticks ▸ Nat.zero_lt_one)
  rw [Task.eq_tick_of_isTickOf htick] at ht
  obtain ⟨due, hdue⟩ := exists_mem_pending ht
  rw [← h.tick_due due hdue]
  exact hdue

theorem clock_le : n.clock ≤ next :=
  h.in_time _ _ h.exists_tick rfl

theorem isCurrent : n.scheduler.isCurrent era = true := by
  simp [Scheduler.isCurrent, h.accounted.running, h.accounted.epoch]

theorem eq_of_isCurrent {epoch : Nat} (hcurrent : n.scheduler.isCurrent epoch = true) :
    epoch = era :=
  (isCurrent_iff.mp hcurrent).2.symm.trans h.accounted.epoch

-- Executions of the same job are the same.
theorem eq_of_owner {e e' : Execution} (he : e ∈ n.live) (he' : e' ∈ n.live)
    (howner : e.owner = e'.owner) : e = e' :=
  List.inj_on_of_nodup_map h.flight.alone he he' howner

-- The jobs at work are those that the start created, but for their runs.
theorem fresh_eq (hids : (created.map Job.id).Nodup) {c : Job} (hc : c ∈ created) {j : Job}
    (hj : j ∈ n.scheduler.active) (hid : j.id = c.id) : j.fresh since = c :=
  List.inj_on_of_nodup_map hids (h.accounted.mem_active.mp ⟨j, hj, rfl⟩).1 hc hid

theorem inFlight_iff {j : Job} (hj : j ∈ n.scheduler.active) :
    j.inFlight = true ↔ (era, j.id) ∈ n.live.map Execution.owner := by
  rw [h.flight.inFlight h.accounted.running j hj, h.accounted.epoch]

-- Nothing that belongs to the run is late, and only a task that runs leaves something behind.
theorem in_time_after {happening : Happening} (htime : n.Punctual happening) {due : Nat} {t : Task}
    (ht : (due, t) ∈ (n.after happening).pending) (hera : t.epoch? = some era) :
    (n.after happening).clock ≤ due ∧
      ((due, t) ∈ n.pending ∨ ∃ place t', happening = .perform place ∧
        n.ready[place]? = some t' ∧ n.Spawns t' due t) := by
  obtain hclock | ⟨millis, rfl⟩ := clock_after n happening
  · rw [hclock]
    obtain hold | ⟨earlier, hle, hold, rfl⟩ | ⟨place, t', rfl, hplace, hspawns⟩ |
      ⟨entries, rfl, -, -⟩ := mem_pending_after htime ht
    · exact ⟨h.in_time _ _ hold hera, .inl hold⟩
    · have hge := h.in_time _ _ hold hera
      exact ⟨Nat.le_refl _, .inl (Nat.le_antisymm hle hge ▸ hold)⟩
    · exact ⟨hspawns.clock_le hera, .inr ⟨place, t', rfl, hplace, hspawns⟩⟩
    · rw [after_start_of_running h.accounted.running] at ht
      exact ⟨h.in_time _ _ ht hera, .inl ht⟩
  · obtain ⟨hready, hasleep⟩ := htime
    have hmem : (due, t) ∈ n.asleep := by simpa [after, pending, hready] using ht
    exact ⟨hasleep _ hmem, .inl (List.mem_append_right _ hmem)⟩

-- A job stands as it did if its execution and itself are left alone.
theorem stands_after {happening : Happening} (htime : n.Punctual happening) {c : Job}
    {phase : Phase} (hstands : n.Stands era since period next c phase)
    (hpassed : ∀ e ∈ n.dispatched happening, e.job.id ≠ c.id)
    (hlive : ∀ e : Execution, e.owner = (era, c.id) →
      (e ∈ (n.after happening).live ↔ e ∈ n.live))
    (hjobs : ∀ j ∈ (n.after happening).scheduler.active, j.id = c.id → j ∈ n.scheduler.active) :
    (n.after happening).Stands era since period next c phase := by
  cases phase with
  | idle due =>
      obtain ⟨hnone, hdue⟩ := hstands
      refine ⟨fun hmem => ?_, fun j hj hid => hdue j (hjobs j hj hid) hid⟩
      obtain ⟨e, he, howner⟩ := List.mem_map.mp hmem
      exact hnone (List.mem_map.mpr ⟨e, (hlive e howner).mp he, howner⟩)
  | busy t e =>
      obtain ⟨he, hepoch, hid, htasks, hgrid, hbefore, hwork, hnext⟩ := hstands
      have howner : e.owner = (era, c.id) := by rw [Execution.owner, hepoch, hid]
      refine ⟨(hlive e howner).mpr he, hepoch, hid, htasks, hgrid, hbefore, ?_,
        fun j hj hj' => hnext j (hjobs j hj hj') hj'⟩
      intro due task hdue hown
      have hera : task.epoch? = some era := by rw [Task.epoch?_of_work? hown, hepoch]
      rw [context_after]
      obtain ⟨-, hold | ⟨place, t', rfl, hplace, hspawns⟩⟩ := h.in_time_after htime hdue hera
      · exact hwork due task hold hown
      · cases hspawns with
        | again => cases hown
        | dispatch hcurrent hscan =>
            cases hown
            rw [← (perform_tick hplace hcurrent).1] at hscan
            exact absurd hid (hpassed e hscan)
        | half hhalf =>
            cases hown
            have hnow := (hwork _ _ (mem_pending_of_ready hplace) rfl).1 rfl
            refine ⟨fun hearly => absurd hearly.symm Bool.false_ne_true,
              fun _ => ⟨by rw [hnow], ?_⟩⟩
            rw [← htasks]
            exact rated_of_halfway? hhalf
        | fanOut | await => cases hown

-- What the next moment has to show for the runs to stay regular.
theorem after_of (hids : (created.map Job.id).Nodup) {happening : Happening}
    (hkeep : happening.keepsRunning = true) (htime : n.Punctual happening) {next' : Nat}
    (ticks : (n.after happening).tasks.countP (Task.isTickOf era) = 1)
    (tick_due : ∀ due, (due, .tick era) ∈ (n.after happening).pending → due = next')
    (next_le : next' ≤ (n.after happening).clock + period) (grid : OnGrid since period next')
    (runs : ∀ c ∈ created, ∃ phase,
      Course (c.pace context period) since (runsAt c.id (ds ++ n.departed happening))
          (endsOf (era, c.id) (xs ++ n.finished happening)) phase ∧
        (n.after happening).Stands era since period next' c phase) :
    Regular context created era since period (ds ++ n.departed happening)
      (xs ++ n.finished happening) next' (n.after happening) where
  context_eq := (context_after n happening).trans h.context_eq
  accounted := by
    have hdispatched : (n.departed happening).map (·.2) = n.dispatched happening := by
      simp [departed, Function.comp_def]
    rw [List.map_append, hdispatched]
    exact h.accounted.step hids (step_after hkeep)
  flight := singleFlight_after h.flight happening
  period_eq := ((step_after hkeep).period_eq h.accounted.running).trans h.period_eq
  ticks := ticks
  tick_due := tick_due
  in_time _ _ hdue hera := (h.in_time_after htime hdue hera).1
  next_le := next_le
  grid := grid
  runs := runs

end Regular

end

end Node

end MetricRelay
