import MetricRelay.Proofs.Scheduling.Regularity

namespace MetricRelay

namespace Node

open Scheduler

section

variable {n : Node} {context : Context} {created : List Job} {era since period next : Nat}
  {ds : List (Nat × Execution)} {xs : List Finish}

namespace Regular

variable (h : Regular context created era since period ds xs next n)

include h

theorem clock_eq {place : Nat} (hplace : n.ready[place]? = some (.tick era)) : n.clock = next :=
  h.tick_due _ (mem_pending_of_ready hplace)

theorem runsOf_scan (hids : (created.map Job.id).Nodup) (now : Nat) {j : Job}
    (hj : j ∈ n.scheduler.active) :
    runsOf j.id (n.scheduler.scan now).1 = if j.isIdleDue now then [⟨era, j.begun⟩] else [] :=
  List.append_cancel_left ((runsOf_append ..).symm.trans (h.accounted.runsOf_scan hids now hj))

-- A tick begins the run of an idle job that is due.
theorem stands_of_dispatched (hids : (created.map Job.id).Nodup) {place : Nat}
    (hplace : n.ready[place]? = some (.tick era)) {c : Job} (hc : c ∈ created) {j : Job}
    (hj : j ∈ n.scheduler.active) (hid : j.id = c.id) (hdue : j.isIdleDue n.clock = true)
    (hidle : (era, c.id) ∉ n.live.map Execution.owner) :
    (n.after (.perform place)).Stands era since period (next + period) c
      (.busy n.clock ⟨era, j.begun⟩) := by
  have hdispatched : (⟨era, j.begun⟩ : Execution) ∈ (n.scheduler.scan n.clock).1 := by
    have hruns := h.runsOf_scan hids n.clock hj
    rw [if_pos hdue] at hruns
    exact (List.mem_filter.mp (hruns ▸ List.mem_singleton_self _)).1
  have hclock := h.clock_eq hplace
  refine ⟨?_, rfl, hid, ?_, hclock ▸ h.grid, by omega, ?_, ?_⟩
  · exact (live_perform_tick hplace h.isCurrent).mem_iff.mpr (List.mem_append_left _ hdispatched)
  · rw [← h.fresh_eq hids hc hj hid]
    rfl
  · intro due task hpending hwork
    have hera : task.epoch? = some era := Task.epoch?_of_work? hwork
    obtain ⟨-, hold | ⟨place', t', hsame, hplace', hspawns⟩⟩ :=
      h.in_time_after (punctual_perform place) hpending hera
    · have hlive : (⟨era, j.begun⟩ : Execution) ∈ n.live :=
        List.mem_filterMap.mpr ⟨task, mem_tasks_of_mem_pending hold, hwork⟩
      refine absurd (List.mem_map.mpr ⟨_, hlive, ?_⟩) hidle
      exact congrArg (era, ·) hid
    · cases hsame
      rw [hplace] at hplace'
      cases hplace'
      cases hspawns with
      | again => cases hwork
      | dispatch => exact ⟨fun _ => rfl, fun hlate => absurd hlate Bool.false_ne_true⟩
      | fanOut hend => cases hend
  · intro j' hj' hid'
    rw [(perform_tick hplace h.isCurrent).2] at hj'
    obtain ⟨i, hi, rfl⟩ := mem_scan_active hj'
    rw [visited_id] at hid'
    have hi' : i = j := List.inj_on_of_nodup_map h.flight.ids hi hj (hid'.trans hid.symm)
    have hnext : j.next ≤ n.clock := by simp_all [Job.isIdleDue, Job.isDue]
    rw [hi', if_pos hdue]
    exact hnext

-- A tick passes over a job that is not due or at work.
theorem stands_of_passed {place : Nat} (hplace : n.ready[place]? = some (.tick era)) {c : Job}
    {phase : Phase} (hstands : n.Stands era since period next c phase)
    (hpassed : ∀ j ∈ n.scheduler.active, j.id = c.id → j.isIdleDue n.clock = false) :
    (∀ e ∈ n.dispatched (.perform place), e.job.id ≠ c.id) ∧
      (n.after (.perform place)).Stands era since period (next + period) c phase := by
  obtain ⟨hscan, hscheduler⟩ := perform_tick hplace h.isCurrent
  have hlive := live_perform_tick hplace h.isCurrent
  have hnone : ∀ e ∈ (n.scheduler.scan n.clock).1, e.job.id ≠ c.id :=
    fun e he => ne_of_mem_scan hpassed he
  have hkept : ∀ j ∈ (n.after (.perform place)).scheduler.active, j.id = c.id →
      j ∈ n.scheduler.active := by
    intro j' hj' hid'
    rw [hscheduler] at hj'
    obtain ⟨j, hj, rfl⟩ := mem_scan_active hj'
    rw [visited_id] at hid'
    rwa [if_neg (by simp [hpassed j hj hid'])]
  have hdispatched : ∀ e ∈ n.dispatched (.perform place), e.job.id ≠ c.id := by rwa [hscan]
  refine ⟨hdispatched, Stands.later ?_ h.grid ?_⟩
  · refine h.stands_after (punctual_perform place) hstands hdispatched (fun e howner => ?_) hkept
    rw [hlive.mem_iff, List.mem_append]
    have hid : e.job.id = c.id := (Prod.mk.inj howner).2
    exact ⟨fun he => he.resolve_left fun he => hnone e he hid, .inr⟩
  · intro j hj hid hnext
    have hj := hkept j hj hid
    have hbusy := hpassed j hj hid
    rw [← h.clock_eq hplace] at hnext
    have hflight : j.inFlight = true := by simpa [Job.isIdleDue, Job.isDue, hnext] using hbusy
    rw [h.inFlight_iff hj, hid] at hflight
    rw [(hlive.map _).mem_iff, List.map_append]
    exact List.mem_append_right _ hflight

-- Every tick leaves the next one behind.
theorem ticks_after_tick {place : Nat} (hplace : n.ready[place]? = some (.tick era)) :
    (n.after (.perform place)).tasks.countP (Task.isTickOf era) = 1 ∧
      ∀ due, (due, .tick era) ∈ (n.after (.perform place)).pending → due = next + period := by
  have hothers : (n.others place).countP (Task.isTickOf era) = 0 := by
    have hcount := (tasks_perm hplace).countP_eq (Task.isTickOf era)
    rw [h.ticks, List.countP_cons_of_pos (by simp [Task.isTickOf])] at hcount
    omega
  have hnone : .tick era ∉ n.others place := by
    intro hmem
    simpa [Task.isTickOf] using List.countP_eq_zero.mp hothers _ hmem
  obtain ⟨c, hturn, -, hafter⟩ := exists_turn hplace
  have hc : c = ⟨(n.scheduler.scan n.clock).1.map Task.collect, [(next + period, .tick era)],
      (n.scheduler.scan n.clock).2, n.source, n.relay⟩ := by
    cases hturn with
    | idle hidle => rw [h.isCurrent] at hidle; cases hidle
    | scan => rw [h.clock_eq hplace, h.period_eq]; rfl
    | succeed source hend => cases hend
    | fail source hend => cases hend
  have hcollect : ∀ es : List Execution,
      (es.map Task.collect).countP (Task.isTickOf era) = 0 := by
    intro es
    rw [List.countP_eq_zero]
    intro t ht
    obtain ⟨e, -, rfl⟩ := List.mem_map.mp ht
    exact Bool.false_ne_true
  rw [hafter]
  constructor
  · rw [(tasks_change place c).countP_eq, List.countP_append, hothers, hc, Change.spawned,
      List.countP_append, hcollect]
    simp [Task.isTickOf]
  · intro due hdue
    rcases mem_pending_change hdue with hold | hnew
    · exact absurd hold hnone
    · rw [hc] at hnew
      rcases List.mem_append.mp hnew with hnew | hnew
      · obtain ⟨t, ht, heq⟩ := List.mem_map.mp hnew
        obtain ⟨e, -, rfl⟩ := List.mem_map.mp ht
        cases heq
      · cases List.mem_singleton.mp hnew
        rfl

-- A tick dispatches the jobs that are due, each at the time of its next run.
theorem tick (hids : (created.map Job.id).Nodup) {place : Nat}
    (hplace : n.ready[place]? = some (.tick era)) :
    Regular context created era since period (ds ++ n.departed (.perform place))
      (xs ++ n.finished (.perform place)) (next + period) (n.after (.perform place)) := by
  have hclock := h.clock_eq hplace
  have hfinished : n.finished (.perform place) = [] := finished_eq hplace
  obtain ⟨hticks, hagain⟩ := h.ticks_after_tick hplace
  refine h.after_of hids rfl (punctual_perform place) hticks hagain ?_
    (by simpa using h.grid.add_mul 1) ?_
  · have hsame : (n.after (.perform place)).clock = n.clock :=
      (clock_after n _).resolve_right fun ⟨_, helapse⟩ => nomatch helapse
    omega
  · intro c hc
    obtain ⟨phase, hcourse, hstands⟩ := h.runs c hc
    rw [hfinished, List.append_nil]
    by_cases hdue : ∃ j ∈ n.scheduler.active, j.id = c.id ∧ j.isIdleDue n.clock = true
    · obtain ⟨j, hj, hid, hdue⟩ := hdue
      have hidle : (era, c.id) ∉ n.live.map Execution.owner := by
        rw [← hid, ← h.inFlight_iff hj]
        simp_all [Job.isIdleDue]
      cases phase with
      | idle due =>
          refine ⟨.busy n.clock ⟨era, j.begun⟩, ?_,
            h.stands_of_dispatched hids hplace hc hj hid hdue hidle⟩
          have hruns : runsAt c.id (n.departed (.perform place)) = [(n.clock, ⟨era, j.begun⟩)] := by
            rw [runsAt_departed, (perform_tick hplace h.isCurrent).1, ← hid,
              h.runsOf_scan hids n.clock hj, if_pos hdue]
            rfl
          have hnext : j.next ≤ next := by simp_all [Job.isIdleDue, Job.isDue]
          rw [runsAt_append, hruns]
          exact .depart hcourse (hclock ▸ (hstands.2 j hj hid).eq_next h.grid hnext)
      | busy t e =>
          obtain ⟨he, hepoch, heid, -⟩ := hstands
          exact absurd (List.mem_map.mpr ⟨e, he, by rw [Execution.owner, hepoch, heid]⟩) hidle
    · have hpassed : ∀ j ∈ n.scheduler.active, j.id = c.id → j.isIdleDue n.clock = false := by
        intro j hj hid
        rw [← Bool.not_eq_true]
        exact fun hidle => hdue ⟨j, hj, hid, hidle⟩
      obtain ⟨hnone, hstands'⟩ := h.stands_of_passed hplace hstands hpassed
      have hruns : runsAt c.id (n.departed (.perform place)) = [] := by
        rw [runsAt_departed, runsOf, List.filter_eq_nil_iff.mpr]
        · rfl
        · intro e he
          simpa using hnone e he
      rw [runsAt_append, hruns, List.append_nil]
      exact ⟨phase, hcourse, hstands'⟩

-- What is no tick of the run leaves the jobs as they are, or ends an execution.
theorem other_cases {happening : Happening} (hkeep : happening.keepsRunning = true)
    (hother : ∀ place, happening = .perform place → n.ready[place]? ≠ some (.tick era)) :
    (n.finished happening = [] ∧
      (n.after happening).scheduler.active = n.scheduler.active ∧
      (n.after happening).live.Perm n.live) ∨
    ∃ place t e r, happening = .perform place ∧ n.ready[place]? = some t ∧
      n.ending? t = some (e, r) ∧
      n.finished happening = [⟨n.clock, e, r, t.isSecond⟩] ∧
      (n.after happening).scheduler =
        n.scheduler.conclude n.context.advanceOnFailure n.clock e r ∧
      n.live.Perm (e :: (n.after happening).live) := by
  cases happening with
  | perform place =>
      cases hplace : n.ready[place]? with
      | none =>
          refine .inl ⟨by simp only [finished, hplace], ?_⟩
          rw [after_perform_none hplace]
          exact ⟨rfl, .refl _⟩
      | some t =>
          obtain ⟨c, hturn, -, hafter⟩ := exists_turn hplace
          rw [hafter]
          obtain ⟨epoch, rfl, hcurrent, -, -⟩ | ⟨e, r, hend, hscheduler, hlive⟩ |
            ⟨hnone, hscheduler, hlive⟩ := hturn.live_cases hplace
          · rw [h.eq_of_isCurrent hcurrent] at hplace
            exact absurd hplace (hother place rfl)
          · exact .inr ⟨place, t, e, r, rfl, hplace, hend, by rw [finished_eq hplace, hend]; rfl,
              hscheduler, hlive⟩
          · exact .inl ⟨by rw [finished_eq hplace, hnone]; rfl, congrArg Scheduler.active hscheduler,
              hlive⟩
  | wake place =>
      rw [scheduler_wake]
      exact .inl ⟨rfl, rfl, (tasks_wake place).filterMap _⟩
  | start entries =>
      rw [after_start_of_running h.accounted.running]
      exact .inl ⟨rfl, rfl, .refl _⟩
  | stop | drop => cases hkeep
  | listen | elapse | supply | relink => exact .inl ⟨rfl, rfl, .refl _⟩

-- The end of an execution makes its job idle, and due at the time of its next run.
theorem stands_of_ended (hids : (created.map Job.id).Nodup) (hperiod : 0 < period)
    {place : Nat} {t : Task} {e : Execution} {r : Result} (hplace : n.ready[place]? = some t)
    (hend : n.ending? t = some (e, r))
    (hscheduler : (n.after (.perform place)).scheduler =
      n.scheduler.conclude n.context.advanceOnFailure n.clock e r)
    (hlive : n.live.Perm (e :: (n.after (.perform place)).live)) {c : Job} (hc : c ∈ created)
    (hinterval : period ≤ c.interval) {since' : Nat}
    (hstands : n.Stands era since period next c (.busy since' e)) :
    (n.after (.perform place)).Stands era since period next c
      (.idle (((c.pace context period).gap? since' r t.isSecond).map (since' + ·))) := by
  obtain ⟨he, hepoch, hid, htasks, hgrid, hbefore, hwork, hjobs⟩ := hstands
  have howner : e.owner = (era, c.id) := by rw [Execution.owner, hepoch, hid]
  have hown := work?_of_ending? hend
  obtain ⟨hfirst, hsecond⟩ := hwork _ _ (mem_pending_of_ready hplace) hown
  refine ⟨?_, ?_⟩
  · have halone := (hlive.map Execution.owner).nodup_iff.mp h.flight.alone
    rw [List.map_cons, howner] at halone
    exact (List.nodup_cons.mp halone).1
  · intro j' hj' hid'
    have hcurrent : n.scheduler.isCurrent e.epoch = true := hepoch ▸ h.isCurrent
    rw [hscheduler] at hj'
    obtain ⟨j, hj, rfl⟩ := mem_conclude_active hcurrent hj'
    have hsame : j.id = e.job.id := by
      by_contra hne
      rw [if_neg hne] at hid'
      exact hne (hid'.trans hid.symm)
    have hfresh := h.fresh_eq hids hc hj (hsame.trans hid)
    rw [if_pos hsame, h.context_eq]
    refine dueAt_of_finish hperiod hinterval (by rw [← hfresh]; rfl) hgrid h.grid hbefore
      h.clock_le h.next_le (hjobs j hj (hsame.trans hid)) ?_ ?_
    · intro hearly
      refine ⟨hfirst hearly, fun hr => ?_⟩
      cases t with
      | collect e' =>
          cases hown
          rw [← htasks]
          exact not_rated_of_ending? (hr ▸ hend)
      | close => cases hearly
      | _ => cases hown
    · intro hlate
      obtain ⟨hnow, hrated⟩ := hsecond hlate
      rw [h.context_eq] at hnow
      refine ⟨hnow, hrated, ?_⟩
      cases t with
      | close => exact ending?_close_ne_panic hend
      | _ => cases hlate

-- The end of an execution leaves the jobs of others alone.
theorem stands_of_other_ended {place : Nat} {e : Execution} {r : Result}
    (hscheduler : (n.after (.perform place)).scheduler =
      n.scheduler.conclude n.context.advanceOnFailure n.clock e r)
    (hlive : n.live.Perm (e :: (n.after (.perform place)).live))
    (hnone : n.dispatched (.perform place) = []) {c : Job} (howner : e.owner ≠ (era, c.id))
    {phase : Phase} (hstands : n.Stands era since period next c phase) :
    (n.after (.perform place)).Stands era since period next c phase := by
  refine h.stands_after (punctual_perform place) hstands (by simp [hnone]) ?_ ?_
  · intro e' howner'
    have hne : e' ≠ e := fun heq => howner (heq ▸ howner')
    rw [hlive.mem_iff, List.mem_cons]
    exact ⟨.inr, fun he' => he'.resolve_left hne⟩
  · intro j' hj' hid'
    rw [hscheduler] at hj'
    by_cases hcurrent : n.scheduler.isCurrent e.epoch = true
    · obtain ⟨j, hj, rfl⟩ := mem_conclude_active hcurrent hj'
      by_cases hsame : j.id = e.job.id
      · refine absurd ?_ howner
        rw [if_pos hsame, (apply_inFlight ..).2] at hid'
        rw [Execution.owner, h.eq_of_isCurrent hcurrent, ← hsame, hid']
      · rwa [if_neg hsame]
    · simpa [Scheduler.conclude, hcurrent] using hj'

-- Between two ticks some executions end and nothing is dispatched.
theorem runs_between (hids : (created.map Job.id).Nodup) (hperiod : 0 < period)
    (hinterval : ∀ c ∈ created, period ≤ c.interval) {happening : Happening}
    (hkeep : happening.keepsRunning = true) (htime : n.Punctual happening)
    (hother : ∀ place, happening = .perform place → n.ready[place]? ≠ some (.tick era))
    (hnone : n.dispatched happening = []) {c : Job} (hc : c ∈ created) :
    ∃ phase,
      Course (c.pace context period) since (runsAt c.id ds)
          (endsOf (era, c.id) (xs ++ n.finished happening)) phase ∧
        (n.after happening).Stands era since period next c phase := by
  obtain ⟨phase, hcourse, hstands⟩ := h.runs c hc
  obtain ⟨hfinished, hactive, hlive⟩ |
    ⟨place, t, e, r, rfl, hplace, hend, hfinished, hscheduler, hlive⟩ :=
    h.other_cases hkeep hother
  · rw [hfinished, List.append_nil]
    exact ⟨phase, hcourse, h.stands_after htime hstands (by simp [hnone])
      (fun e _ => hlive.mem_iff) fun j hj _ => hactive ▸ hj⟩
  · rw [endsOf_append, hfinished]
    by_cases howner : e.owner = (era, c.id)
    · have he : e ∈ n.live := hlive.mem_iff.mpr List.mem_cons_self
      have hends : endsOf (era, c.id) [⟨n.clock, e, r, t.isSecond⟩] =
          [⟨n.clock, e, r, t.isSecond⟩] := by simp [endsOf, howner]
      rw [hends]
      cases phase with
      | idle due => exact absurd (List.mem_map.mpr ⟨e, he, howner⟩) hstands.1
      | busy since' e' =>
          have hsame : e' = e := by
            obtain ⟨he', hepoch', hid', -⟩ := hstands
            refine h.eq_of_owner he' he ?_
            rw [howner, Execution.owner, hepoch', hid']
          subst hsame
          exact ⟨_, .finish hcourse, h.stands_of_ended hids hperiod hplace hend hscheduler hlive
            hc (hinterval c hc) hstands⟩
    · have hends : endsOf (era, c.id) [⟨n.clock, e, r, t.isSecond⟩] = [] := by
        simp [endsOf, howner]
      rw [hends, List.append_nil]
      exact ⟨phase, hcourse, h.stands_of_other_ended hscheduler hlive hnone howner hstands⟩

theorem between (hids : (created.map Job.id).Nodup) (hperiod : 0 < period)
    (hinterval : ∀ c ∈ created, period ≤ c.interval) {happening : Happening}
    (hkeep : happening.keepsRunning = true) (htime : n.Punctual happening)
    (hother : ∀ place, happening = .perform place → n.ready[place]? ≠ some (.tick era)) :
    Regular context created era since period (ds ++ n.departed happening)
      (xs ++ n.finished happening) next (n.after happening) := by
  have hnone : n.dispatched happening = [] := by
    refine List.eq_nil_iff_forall_not_mem.mpr fun e he => ?_
    obtain ⟨place, epoch, rfl, hplace, hcurrent, -⟩ := mem_dispatched he
    rw [h.eq_of_isCurrent hcurrent] at hplace
    exact hother place rfl hplace
  have hdeparted : n.departed happening = [] := by rw [departed, hnone]; rfl
  refine h.after_of hids hkeep htime ?_ ?_ ?_ h.grid fun c hc => ?_
  · rw [countP_isTickOf_after h.accounted.running hkeep hother]
    exact h.ticks
  · intro due hdue
    obtain ⟨-, hold | ⟨place, t, rfl, hplace, hspawns⟩⟩ := h.in_time_after htime hdue rfl
    · exact h.tick_due due hold
    · cases hspawns with
      | again => exact absurd hplace (hother place rfl)
  · exact Nat.le_trans h.next_le (Nat.add_le_add_right (clock_le_after n happening) _)
  · rw [hdeparted, List.append_nil]
    exact h.runs_between hids hperiod hinterval hkeep htime hother hnone hc

-- Runs go on as they should with everything that happens in its time.
theorem after (hids : (created.map Job.id).Nodup) (hperiod : 0 < period)
    (hinterval : ∀ c ∈ created, period ≤ c.interval) {happening : Happening}
    (hkeep : happening.keepsRunning = true) (htime : n.Punctual happening) :
    ∃ next', Regular context created era since period (ds ++ n.departed happening)
      (xs ++ n.finished happening) next' (n.after happening) := by
  by_cases htick : ∃ place, happening = .perform place ∧ n.ready[place]? = some (.tick era)
  · obtain ⟨place, rfl, hplace⟩ := htick
    exact ⟨_, h.tick hids hplace⟩
  · refine ⟨next, h.between hids hperiod hinterval hkeep htime ?_⟩
    exact fun place hsame hplace => htick ⟨place, hsame, hplace⟩

theorem follow (hids : (created.map Job.id).Nodup) (hperiod : 0 < period)
    (hinterval : ∀ c ∈ created, period ≤ c.interval) {hs : List Happening}
    (hkeep : ∀ h ∈ hs, h.keepsRunning = true) (htime : n.OnTime hs) :
    ∃ next', Regular context created era since period (ds ++ gather departed n hs)
      (xs ++ gather finished n hs) next' (n.follow hs) := by
  induction hs using List.reverseRecOn with
  | nil =>
      simp only [gather, List.append_nil]
      exact ⟨next, h⟩
  | append_singleton hs happening ih =>
      obtain ⟨hbefore, hlast⟩ := onTime_append.mp htime
      obtain ⟨next', hregular⟩ := ih (fun h hmem => hkeep h (by simp [hmem])) hbefore
      rw [gather_concat, gather_concat, follow_concat, ← List.append_assoc, ← List.append_assoc]
      exact hregular.after hids hperiod hinterval (hkeep happening (by simp)) hlast.1

-- A job with runs left is among the active ones.
theorem next_le_of_due (hids : (created.map Job.id).Nodup) {c : Job} (hc : c ∈ created)
    (hleft : unspent (ds.map (·.2)) c = true) {d : Nat}
    (hstands : n.Stands era since period next c (.idle (some d))) : n.clock ≤ d := by
  obtain ⟨j, hj, hid⟩ := List.mem_map.mp ((h.accounted.mem_ids hids hc).mpr hleft)
  obtain ⟨d', hd, -, hle, -⟩ := hstands.2 j hj hid
  rw [← hd d rfl]
  exact Nat.le_trans h.clock_le hle

-- A collection is over when its time is.
theorem clock_le_of_busy {c : Job} {t : Nat} {e : Execution}
    (hstands : n.Stands era since period next c (.busy t e)) :
    n.clock ≤ t + (c.pace context period).stay := by
  obtain ⟨he, hepoch, -, -, -, -, hwork, -⟩ := hstands
  obtain ⟨task, htask, hown⟩ := List.mem_filterMap.mp he
  obtain ⟨due, hdue⟩ := exists_mem_pending htask
  obtain ⟨hfirst, hsecond⟩ := hwork due task hdue hown
  have hle := h.in_time due task hdue (by rw [Task.epoch?_of_work? hown, hepoch])
  cases hlate : task.isSecond with
  | false =>
      rw [hfirst hlate] at hle
      exact Nat.le_add_right_of_le hle
  | true =>
      obtain ⟨heq, hrated⟩ := hsecond hlate
      have hstay : (c.pace context period).stay = n.context.delay := by
        simp [Pace.stay, Job.pace, hrated, h.context_eq]
      rw [hstay, ← heq]
      exact hle

end Regular

-- A start puts its first tick at the present time.
theorem pending_start {entries : List Sentinel} {report : StartReport}
    (hstart : (n.start entries).1 = .ok report) :
    (n.start entries).2.pending =
      n.ready.map (n.clock, ·) ++ (n.clock, .tick (n.scheduler.epoch + 1)) :: n.asleep := by
  obtain ⟨-, hepoch, -⟩ := start_ok (start_scheduler hstart)
  obtain ⟨report', s, -, hafter⟩ | hafter := after_start_cases n entries
  · change (n.start entries).2 = _ at hafter
    rw [hafter] at hepoch ⊢
    simp only [pending, List.map_append, List.append_assoc, ← hepoch]
    rfl
  · change (n.start entries).2 = _ at hafter
    rw [hafter] at hepoch
    exact absurd hepoch (Nat.succ_ne_self n.scheduler.epoch).symm

theorem countP_isTickOf_start {entries : List Sentinel} {report : StartReport}
    (hstart : (n.start entries).1 = .ok report)
    (hnone : n.tasks.countP (Task.isTickOf (n.scheduler.epoch + 1)) = 0) :
    (n.start entries).2.tasks.countP (Task.isTickOf (n.scheduler.epoch + 1)) = 1 := by
  have htick : Task.isTickOf (n.scheduler.epoch + 1) (.tick (n.scheduler.epoch + 1)) = true := by
    simp [Task.isTickOf]
  rw [tasks, List.countP_append] at hnone
  rw [← map_snd_pending, pending_start hstart, List.map_append, List.map_map, List.countP_append,
    List.map_cons, List.countP_cons_of_pos htick]
  simp only [Function.comp_def, List.map_id']
  omega

theorem regular_start {context : Context} {source : Source} {relay : Relay} {past : List Happening}
    {entries : List Sentinel} {report : StartReport}
    (hstart : (((Node.new context source relay).follow past).start entries).1 = .ok report) :
    let n := (Node.new context source relay).follow past
    Regular context (jobsFrom n.clock 0 (entries.filter Sentinel.isActive)) (n.scheduler.epoch + 1)
      n.clock report.tick [] [] n.clock (n.start entries).2 := by
  intro n
  have hscheduler := start_scheduler hstart
  obtain ⟨-, -, hactive⟩ := start_ok hscheduler
  have hflight : n.scheduler.SingleFlight n.live := singleFlight_follow (singleFlight_new ..) past
  have hclock : (n.start entries).2.clock = n.clock :=
    (clock_after n (.start entries)).resolve_right fun ⟨_, helapse⟩ => nomatch helapse
  -- what a node has to do already belongs to the runs before
  have hfuture : ∀ t ∈ n.tasks, t.epoch? ≠ some (n.scheduler.epoch + 1) := by
    intro t ht hera
    have hpast : n.scheduler.epoch + 1 ≤ n.scheduler.epoch :=
      noFuture_follow context source relay past t ht _ hera
    omega
  have hpending : ∀ due t, (due, t) ∈ (n.start entries).2.pending →
      t.epoch? = some (n.scheduler.epoch + 1) → due = n.clock ∧ t = .tick (n.scheduler.epoch + 1) := by
    intro due t ht hera
    have hnew : (due, t) ∉ n.pending := fun hmem => hfuture t (mem_tasks_of_mem_pending hmem) hera
    rw [pending_start hstart, List.mem_append, List.mem_cons] at ht
    rw [pending, List.mem_append, not_or] at hnew
    obtain heq := (ht.resolve_left hnew.1).resolve_right hnew.2
    cases heq
    exact ⟨rfl, rfl⟩
  have hticks : (n.start entries).2.tasks.countP (Task.isTickOf (n.scheduler.epoch + 1)) = 1 := by
    have hnone : n.tasks.countP (Task.isTickOf (n.scheduler.epoch + 1)) = 0 := by
      refine List.countP_eq_zero.mpr fun t ht htick => hfuture t ht ?_
      rw [Task.eq_tick_of_isTickOf htick]
      rfl
    exact countP_isTickOf_start hstart hnone
  refine ⟨?_, accounted_start hscheduler, singleFlight_after hflight (.start entries),
    (start_period hscheduler).1, hticks, fun due hdue => (hpending due _ hdue rfl).1, ?_, ?_,
    ⟨0, rfl⟩, ?_⟩
  · exact (context_after n (.start entries)).trans (context_follow _ past)
  · intro due t ht hera
    rw [hclock, (hpending due t ht hera).1]
  · rw [hclock]
    exact Nat.le_add_right _ _
  · intro c hc
    refine ⟨.idle (some n.clock), .fresh, fun hmem => ?_, fun j hj hid => ?_⟩
    · obtain ⟨e, he, hepoch', -⟩ := mem_live_owners.mp hmem
      obtain ⟨t, ht, hwork⟩ := List.mem_filterMap.mp he
      obtain ⟨due, hdue⟩ := exists_mem_pending ht
      have hera : t.epoch? = some (n.scheduler.epoch + 1) := by
        rw [Task.epoch?_of_work? hwork, hepoch']
      rw [(hpending due t hdue hera).2] at hwork
      cases hwork
    · rw [hactive, jobsFrom_eq] at hj
      obtain ⟨i, hi, rfl⟩ := List.mem_mapIdx.mp hj
      exact dueAt_next ⟨0, rfl⟩ rfl (Nat.le_refl _)

end

-- From a start on, while nobody stops the node and things happen in their times, every job is run
-- for the first time at once, and after each run again when the time has passed that follows from
-- how the collection of that run ended, as long as it has runs left. Ticks are as far apart as the
-- shortest interval. A collection takes no longer than its readings are apart. A job that is to wait
-- for an interval does so if the clock can tell its end, and else is run again like a job that is
-- to be retried.
theorem dispatch_times (context : Context) (source : Source) (relay : Relay)
    (past : List Happening) {hs : List Happening} {entries : List Sentinel} {report : StartReport}
    (hstart : (((Node.new context source relay).follow past).start entries).1 = .ok report)
    (hkeep : ∀ h ∈ hs, h.keepsRunning = true)
    (htime : (((Node.new context source relay).follow past).start entries).2.OnTime hs) :
    let n := (Node.new context source relay).follow past
    let jobs := entries.filter Sentinel.isActive
    let m := (n.start entries).2
    let now := m.follow hs
    (∃ entry ∈ jobs, report.tick = seconds entry.interval) ∧
    (∀ entry ∈ jobs, report.tick ≤ seconds entry.interval) ∧
    ∀ id entry, jobs[id]? = some entry →
      let pace : Pace := ⟨report.tick, seconds entry.interval, context.delay,
        entry.tasks.any Kind.isRate, context.advanceOnFailure⟩
      let ds := runsAt id (gather departed m hs)
      let xs := endsOf (n.scheduler.epoch + 1, id) (gather finished m hs)
      (ds = [] → now.clock ≤ n.clock) ∧
      (∀ t e, ds[0]? = some (t, e) → t = n.clock) ∧
      ∀ i t e, ds[i]? = some (t, e) →
        (xs[i]? = none → ds[i + 1]? = none ∧ e ∈ now.live ∧ now.clock ≤ t + pace.stay) ∧
        ∀ x, xs[i]? = some x → x.execution = e ∧
          ∀ gap, pace.gap? t x.result x.late = some gap →
            (∀ t' e', ds[i + 1]? = some (t', e') → t' = t + gap) ∧
            (ds[i + 1]? = none → (0 < entry.count → ds.length < entry.count.toInt.toNat) →
              now.clock ≤ t + gap) := by
  intro n jobs m now
  obtain ⟨-, hperiod, hshortest, hinterval⟩ := start_period (start_scheduler hstart)
  refine ⟨hshortest, hinterval, ?_⟩
  have hids : ((jobsFrom n.clock 0 jobs).map Job.id).Nodup := by
    rw [map_id_jobsFrom]
    exact List.nodup_range'
  have hintervals : ∀ c ∈ jobsFrom n.clock 0 jobs, report.tick ≤ c.interval := by
    intro c hc
    rw [jobsFrom_eq] at hc
    obtain ⟨i, hi, rfl⟩ := List.mem_mapIdx.mp hc
    exact hinterval _ (List.getElem_mem hi)
  obtain ⟨next, hregular⟩ := (regular_start hstart).follow hids hperiod hintervals hkeep htime
  intro id entry hentry pace ds xs
  have hc : Job.new id entry n.clock ∈ jobsFrom n.clock 0 jobs := jobNew_mem hentry
  have hleft : (0 < entry.count → ds.length < entry.count.toInt.toNat) →
      unspent ((gather departed m hs).map (·.2)) (Job.new id entry n.clock) = true := by
    intro hcount
    rwa [unspent_new, runsOf_map_snd, List.length_map]
  obtain ⟨phase, hcourse, hstands⟩ := hregular.runs _ hc
  have hcourse : Course pace n.clock ds xs phase := hcourse
  refine ⟨fun hnil => ?_, fun t e hget => hcourse.first_eq hget,
    fun i t e hget => ⟨fun hnone => ?_, fun x hx => ?_⟩⟩
  · rw [hnil] at hcourse hleft
    rw [hcourse.phase_of_nil] at hstands
    refine hregular.next_le_of_due hids hc (hleft fun hcount => ?_) hstands
    rw [Int64.lt_iff_toInt_lt, Int64.toInt_zero] at hcount
    rw [List.length_nil]
    omega
  · rw [hcourse.busy_of_getElem? hget hnone] at hstands
    refine ⟨?_, hstands.1, hregular.clock_le_of_busy hstands⟩
    by_contra hsome
    obtain ⟨d, hd⟩ := Option.ne_none_iff_exists'.mp hsome
    obtain ⟨x, hx, -⟩ := hcourse.next_eq hget hd
    rw [hnone] at hx
    cases hx
  · refine ⟨hcourse.execution_eq hget hx, fun gap hgap => ⟨fun t' e' hnext => ?_, ?_⟩⟩
    · obtain ⟨x', hx', htime'⟩ := hcourse.next_eq hget hnext
      cases hx.symm.trans hx'
      exact htime' gap hgap
    · intro hlast hcount
      rw [hcourse.idle_of_getElem? hget hx hlast, hgap] at hstands
      exact hregular.next_le_of_due hids hc (hleft hcount) hstands

-- A job with rates that is to run every second is run by every second tick only, because it takes
-- half a second to read them twice.
theorem dispatch_times_rate :
    let entry : Sentinel := ⟨[.cpu], [⟨"http://north", .http, none⟩], -1, 1, []⟩
    let n : Node := .new ⟨"north", 500, false⟩ .idle (.new (.make 5 60000))
    let hs : List Happening := [.perform 0, .perform 0, .elapse 500, .wake 1, .perform 0,
      .perform 0, .elapse 500, .wake 0, .perform 0, .elapse 1000, .wake 0, .perform 0]
    (n.start [entry]).1 = .ok ⟨1, 0, 1000⟩ ∧ (n.start [entry]).2.OnTime hs ∧
      (runsAt 0 (gather departed (n.start [entry]).2 hs)).map (·.1) = [0, 2000] := by
  intro entry n hs
  have hstart : (n.start [entry]).1 = .ok ⟨1, 0, 1000⟩ := rfl
  have hkeep : ∀ h ∈ hs, h.keepsRunning = true := by simp [hs, Happening.keepsRunning]
  have htime : (n.start [entry]).2.OnTime hs := by decide +kernel +zetaReduce
  refine ⟨hstart, htime, ?_⟩
  have hlength : (runsAt 0 (gather departed (n.start [entry]).2 hs)).length = 2 := by
    decide +kernel +zetaReduce
  have hends : (endsOf (1, 0) (gather finished (n.start [entry]).2 hs)).map
      (fun x => (x.result, x.late)) = [(.success, true)] := by decide +kernel +zetaReduce
  have hn : (Node.new ⟨"north", 500, false⟩ .idle (.new (.make 5 60000))).follow [] = n := rfl
  have hjobs := (dispatch_times _ _ _ [] hstart hkeep htime).2.2 0 entry rfl
  rw [hn] at hjobs
  obtain ⟨-, hfirst, hothers⟩ := hjobs
  generalize runsAt 0 (gather departed (n.start [entry]).2 hs) = ds at hlength hfirst hothers ⊢
  have hepoch : n.scheduler.epoch + 1 = 1 := rfl
  rw [hepoch] at hothers
  generalize endsOf (1, 0) (gather finished (n.start [entry]).2 hs) = xs at hends hothers
  obtain ⟨⟨t, e⟩, ⟨t', e'⟩, rfl⟩ := List.length_eq_two.mp hlength
  obtain ⟨x, rfl, hx⟩ := List.map_eq_singleton_iff.mp hends
  obtain ⟨hsuccess, hlate⟩ := Prod.mk.inj hx
  have ht : t = 0 := hfirst t e rfl
  have hgap : (⟨1000, 1000, 500, true, false⟩ : Pace).gap? t x.result x.late = some 2000 := by
    rw [hsuccess, hlate, ht]
    rfl
  have ht' : t' = t + 2000 := ((hothers 0 t e rfl).2 x rfl).2 2000 hgap |>.1 t' e' rfl
  rw [ht', ht]
  rfl

-- A job whose interval ends at a time that the clock cannot tell is run by every tick, although all
-- of its collections succeed.
theorem dispatch_times_of_endless_interval :
    let entries : List Sentinel := [⟨[.gc], [⟨"http://north", .http, none⟩], -1, 1, []⟩,
      ⟨[.gc], [⟨"http://south", .http, none⟩], -1, 18446744073709551615, []⟩]
    let n : Node := .new ⟨"north", 1000, false⟩ .idle (.new (.make 5 60000))
    let round := List.replicate 5 (Happening.perform 0)
    let hs := round ++ [.elapse 1000, .wake 0] ++ round ++ [.elapse 1000, .wake 0] ++ round
    (n.start entries).1 = .ok ⟨2, 0, 1000⟩ ∧ (n.start entries).2.OnTime hs ∧
      (endsOf (1, 1) (gather finished (n.start entries).2 hs)).map (fun x => (x.result, x.late)) =
        [(.success, false), (.success, false), (.success, false)] ∧
      (runsAt 1 (gather departed (n.start entries).2 hs)).map (·.1) = [0, 1000, 2000] ∧
      1000 < 0 + 1000 * (seconds 18446744073709551615 ⌈/⌉ 1000) := by
  intro entries n round hs
  exact ⟨rfl, by decide +kernel +zetaReduce, by decide +kernel +zetaReduce,
    by decide +kernel +zetaReduce, by decide +kernel⟩

end Node

end MetricRelay
