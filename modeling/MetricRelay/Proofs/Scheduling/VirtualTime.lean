import MetricRelay.Proofs.Scheduling.SingleFlight

namespace MetricRelay

namespace Scheduler

variable {s s' : Scheduler}

theorem map_interval_jobsFrom (now id : Nat) (entries : List Sentinel) :
    (jobsFrom now id entries).map Job.interval = entries.map fun e => seconds e.interval := by
  induction entries generalizing id with
  | nil => rfl
  | cons e rest ih => rw [jobsFrom, List.map_cons, ih]; rfl

theorem shortest_eq {intervals : List Nat} (h : intervals ≠ []) :
    shortest intervals ∈ intervals ∧ ∀ i ∈ intervals, shortest intervals ≤ i := by
  cases hmin : intervals.min? with
  | none => exact absurd (List.min?_eq_none_iff.mp hmin) h
  | some least =>
      have hleast : shortest intervals = least := by simp [shortest, hmin]
      rw [hleast]
      exact List.min?_eq_some_iff.mp hmin

-- The ticks of a new run come at the shortest interval of its jobs, which is not nothing.
theorem start_period {entries : List Sentinel} {now : Nat} {report : StartReport}
    (h : s.start entries now = (.ok report, s')) :
    s'.period = some report.tick ∧ 0 < report.tick ∧
      (∃ entry ∈ entries.filter Sentinel.isActive, report.tick = seconds entry.interval) ∧
      ∀ entry ∈ entries.filter Sentinel.isActive, report.tick ≤ seconds entry.interval := by
  rw [start_eq] at h
  split at h
  · cases h
  · dsimp only at h
    split at h
    · cases h
    · rename_i hsome
      split at h
      · cases h
      · rename_i hzero
        cases h
        dsimp only
        generalize entries.filter Sentinel.isActive = chosen at hsome hzero
        rw [map_interval_jobsFrom]
        have hne : chosen.map (fun e => seconds e.interval) ≠ [] := by simpa using hsome
        obtain ⟨hmem, hle⟩ := shortest_eq hne
        obtain ⟨entry, hentry, heq⟩ := List.mem_map.mp hmem
        refine ⟨rfl, ?_, ⟨entry, hentry, heq.symm⟩,
          fun entry hentry => hle _ (List.mem_map_of_mem hentry)⟩
        have hpos : entry.interval ≠ 0 := by
          simpa using List.find?_eq_none.mp hzero entry hentry
        have hnat : entry.interval.toNat ≠ 0 := fun h => hpos (UInt64.toNat_inj.mp h)
        rw [← heq, seconds]
        omega

end Scheduler

namespace Node

variable {n : Node}

-- Whether something happens in its time: nobody wakes before his time has come, and time passes only
-- while nothing is ready, and not past the time at which somebody is to wake.
def Punctual (n : Node) : Happening → Prop
  | .wake place => ∀ due t, n.asleep[place]? = some (due, t) → due ≤ n.clock
  | .elapse millis => n.ready = [] ∧ ∀ sleeper ∈ n.asleep, n.clock + millis ≤ sleeper.1
  | _ => True

instance (n : Node) : (h : Happening) → Decidable (n.Punctual h)
  | .wake place =>
    match hplace : n.asleep[place]? with
    | some (due, t) =>
      if hdue : due ≤ n.clock then
        isTrue fun due' t' h => by
          rw [hplace] at h
          cases h
          exact hdue
      else isFalse fun h => hdue (h due t hplace)
    | none => isTrue fun due t h => by rw [hplace] at h; cases h
  | .elapse millis =>
    if hready : n.ready.isEmpty = true then
      decidable_of_iff (∀ sleeper ∈ n.asleep, n.clock + millis ≤ sleeper.1)
        ⟨fun h => ⟨List.isEmpty_iff.mp hready, h⟩, fun h => h.2⟩
    else isFalse fun h => hready (List.isEmpty_iff.mpr h.1)
  | .perform _ | .start _ | .stop | .drop | .listen _ | .supply _ | .relink _ => isTrue trivial

-- Whether some things happen in their times one after the other. At the same time they may happen in
-- any order.
def OnTime (n : Node) : List Happening → Prop
  | [] => True
  | h :: hs => n.Punctual h ∧ (n.after h).OnTime hs

instance decidableOnTime : (n : Node) → (hs : List Happening) → Decidable (n.OnTime hs)
  | _, [] => isTrue trivial
  | n, h :: hs =>
    have := decidableOnTime (n.after h) hs
    inferInstanceAs (Decidable (n.Punctual h ∧ (n.after h).OnTime hs))

theorem onTime_append {hs hs' : List Happening} :
    n.OnTime (hs ++ hs') ↔ n.OnTime hs ∧ (n.follow hs).OnTime hs' := by
  induction hs generalizing n with
  | nil => simp [OnTime, follow]
  | cons h rest ih =>
      simp only [List.cons_append, OnTime, ih, and_assoc]
      rfl

-- Where a task comes from that a node has, and when it is to run.
theorem mem_pending_after {h : Happening} (hh : n.Punctual h) {due : Nat} {t' : Task}
    (ht' : (due, t') ∈ (n.after h).pending) :
    (due, t') ∈ n.pending ∨
    (∃ earlier ≤ n.clock, (earlier, t') ∈ n.pending ∧ due = n.clock) ∨
    (∃ place t, h = .perform place ∧ n.ready[place]? = some t ∧ n.Spawns t due t') ∨
    ∃ entries, h = .start entries ∧ due = n.clock ∧ t' = .tick (n.after h).scheduler.epoch := by
  cases h with
  | perform place =>
      cases hplace : n.ready[place]? with
      | none => exact .inl (by rwa [after_perform_none hplace] at ht')
      | some t =>
          obtain ⟨c, hturn, -, hafter⟩ := exists_turn hplace
          rw [hafter] at ht'
          have hspawns : (due, t') ∈ c.timed n.clock → n.Spawns t due t' := hturn.spawns
          rcases List.mem_append.mp ht' with ht' | ht'
          · obtain ⟨t'', hmem, heq⟩ := List.mem_map.mp ht'
            cases heq
            rcases List.mem_append.mp hmem with hmem | hmem
            · exact .inl (List.mem_append_left _ (List.mem_map_of_mem (List.mem_of_mem_eraseIdx hmem)))
            · exact .inr (.inr (.inl ⟨place, t, rfl, hplace,
                hspawns (List.mem_append_left _ (List.mem_map_of_mem hmem))⟩))
          · rcases List.mem_append.mp ht' with ht' | ht'
            · exact .inl (List.mem_append_right _ ht')
            · exact .inr (.inr (.inl ⟨place, t, rfl, hplace,
                hspawns (List.mem_append_right _ ht')⟩))
  | wake place =>
      simp only [after] at ht'
      split at ht'
      · rename_i due' t hget
        rcases List.mem_append.mp ht' with ht' | ht'
        · rw [List.map_append] at ht'
          rcases List.mem_append.mp ht' with ht' | ht'
          · exact .inl (List.mem_append_left _ ht')
          · cases List.mem_singleton.mp ht'
            exact .inr (.inl ⟨due', hh due' t' hget,
              List.mem_append_right _ (List.mem_of_getElem? hget), rfl⟩)
        · exact .inl (List.mem_append_right _ (List.mem_of_mem_eraseIdx ht'))
      · exact .inl ht'
  | elapse millis =>
      have hready : n.ready = [] := hh.1
      simp only [after, pending, hready] at ht'
      exact .inl (List.mem_append_right _ ht')
  | start entries =>
      obtain ⟨report, s, -, hafter⟩ | hafter := after_start_cases n entries
      · rw [hafter] at ht' ⊢
        simp only [pending, List.map_append] at ht'
        rcases List.mem_append.mp ht' with ht' | ht'
        · rcases List.mem_append.mp ht' with ht' | ht'
          · exact .inl (List.mem_append_left _ ht')
          · cases List.mem_singleton.mp ht'
            exact .inr (.inr (.inr ⟨entries, rfl, rfl, rfl⟩))
        · exact .inl (List.mem_append_right _ ht')
      · exact .inl (by rwa [hafter] at ht')
  | stop | drop | listen | supply | relink => exact .inl ht'

-- All that sleep wake later, and so will the ticks.
structure Rested (n : Node) : Prop where
  asleep : ∀ sleeper ∈ n.asleep, n.clock < sleeper.1
  paced : n.scheduler.running = true → 0 < n.scheduler.period.getD 0

theorem awaited_later (s : Subscriber) (x : Snapshot) :
    ∀ sleeper ∈ n.awaited s x, n.clock < sleeper.1 := by
  have hmeet : ∀ (r : Relay) (key : String) (met : Reaction) (millis : Nat) (status : UInt16),
      (r.meet key n.clock met).1 = .awaiting millis status → 0 < millis := by
    intro r key met millis status h
    cases met with
    | delayed wait code =>
        simp only [Relay.meet] at h
        split at h
        · cases h
        · rename_i hwait
          cases h
          exact Nat.pos_of_ne_zero hwait
    | status | refused | silent => cases h
  intro sleeper hsleeper
  unfold awaited at hsleeper
  split at hsleeper
  · rename_i millis status hlaunch
    have hpos : 0 < millis := by
      unfold Relay.launch at hlaunch
      split at hlaunch
      · cases hlaunch
      · split at hlaunch
        · cases hlaunch
        · cases hlaunch
        · exact hmeet _ _ _ _ _ hlaunch
    rw [List.mem_singleton.mp hsleeper]
    exact Nat.lt_add_of_pos_right hpos
  · cases hsleeper

theorem Rested.perform (h : n.Rested) (place : Nat) : (n.after (.perform place)).Rested := by
  cases hplace : n.ready[place]? with
  | none => rwa [after_perform_none hplace]
  | some t =>
      obtain ⟨c, hturn, -, hafter⟩ := exists_turn hplace
      rw [hafter]
      have hpaced : c.scheduler.running = n.scheduler.running ∧
          c.scheduler.period = n.scheduler.period := by
        obtain ⟨epoch, -, -, hscan, -⟩ | ⟨e, r, -, hconclude, -⟩ | ⟨-, hsame, -⟩ :=
          hturn.live_cases hplace
        · rw [hscan]
          exact ⟨rfl, rfl⟩
        · rw [hconclude]
          unfold Scheduler.conclude
          split <;> exact ⟨rfl, rfl⟩
        · rw [hsame]
          exact ⟨rfl, rfl⟩
      have hslept : ∀ sleeper ∈ c.slept, n.clock < sleeper.1 := by
        cases hturn with
        | scan hcurrent =>
            intro sleeper hsleeper
            rw [List.mem_singleton.mp hsleeper]
            exact Nat.lt_add_of_pos_right (h.paced (Scheduler.isCurrent_iff.mp hcurrent).1)
        | pause hhalf hd =>
            intro sleeper hsleeper
            rw [List.mem_singleton.mp hsleeper]
            exact Nat.lt_add_of_pos_right hd
        | deliver s x => exact awaited_later s x
        | idle | hurry | succeed | fail | reply =>
            intro sleeper hsleeper
            cases hsleeper
      refine ⟨fun sleeper hsleeper => ?_, fun hrunning => ?_⟩
      · rcases List.mem_append.mp hsleeper with hsleeper | hsleeper
        · exact h.asleep sleeper hsleeper
        · exact hslept sleeper hsleeper
      · change c.scheduler.running = true at hrunning
        change 0 < c.scheduler.period.getD 0
        rw [hpaced.2]
        exact h.paced (hpaced.1 ▸ hrunning)

-- Whether a node gets from one state to another in time, without a start or a stop.
def LeadsOnTime (n n' : Node) : Prop :=
  ∃ hs : List Happening, (∀ h ∈ hs, h.keepsRunning = true) ∧ n.OnTime hs ∧ n.follow hs = n'

theorem LeadsOnTime.refl (n : Node) : n.LeadsOnTime n :=
  ⟨[], by simp, trivial, rfl⟩

theorem LeadsOnTime.cons {n' : Node} {h : Happening} (hh : h.keepsRunning = true)
    (htime : n.Punctual h) (hrest : (n.after h).LeadsOnTime n') : n.LeadsOnTime n' := by
  obtain ⟨hs, hhs, hontime, hfollow⟩ := hrest
  exact ⟨h :: hs, by simpa [hh] using hhs, ⟨htime, hontime⟩, hfollow⟩

theorem LeadsOnTime.trans {n' n'' : Node} (h : n.LeadsOnTime n') (h' : n'.LeadsOnTime n'') :
    n.LeadsOnTime n'' := by
  obtain ⟨hs, hhs, hontime, rfl⟩ := h
  obtain ⟨hs', hhs', hontime', rfl⟩ := h'
  refine ⟨hs ++ hs', ?_, onTime_append.mpr ⟨hontime, hontime'⟩, follow_append hs hs'⟩
  intro h hmem
  rcases List.mem_append.mp hmem with hmem | hmem
  · exact hhs h hmem
  · exact hhs' h hmem

theorem Rested.drain (h : n.Rested) : n.LeadsOnTime n.drain ∧ n.drain.Rested := by
  fun_induction Node.drain n with
  | case1 n _ => exact ⟨.refl n, h⟩
  | case2 n t others hready ih =>
      have hafter : n.after (.perform 0) = n.step t others := by simp [after, hready]
      have hrested := hafter ▸ h.perform 0
      exact ⟨.cons (h := .perform 0) rfl trivial (hafter ▸ (ih hrested).1), (ih hrested).2⟩

private theorem leadsOnTime_wakeAll (d : Nat) (kept rest : List (Nat × Task)) (n : Node)
    (hn : n.asleep = kept ++ rest) (hd : n.clock = d) :
    n.LeadsOnTime { n with
      ready := n.ready ++ (rest.filter fun e => e.1 == d).map (·.2)
      asleep := kept ++ rest.filter fun e => e.1 != d } := by
  induction rest generalizing kept n with
  | nil =>
      have hsame : n = { n with ready := n.ready ++ [], asleep := kept ++ [] } := by
        rw [List.append_nil n.ready, ← hn]
      exact hsame ▸ .refl n
  | cons sleeper rest ih =>
      cases hdue : sleeper.1 == d with
      | true =>
          have hafter : n.after (.wake kept.length) =
              { n with ready := n.ready ++ [sleeper.2], asleep := kept ++ rest } := by
            simp [after, hn, List.eraseIdx_append_of_length_le]
          have htime : n.Punctual (.wake kept.length) := by
            intro due t hget
            rw [hn, List.getElem?_append_right (Nat.le_refl _), Nat.sub_self] at hget
            cases hget
            rw [hd]
            exact Nat.le_of_eq (beq_iff_eq.mp hdue)
          have := ih kept (n.after (.wake kept.length)) (by rw [hafter]) (by rw [hafter, ← hd])
          refine .cons (h := .wake kept.length) rfl htime ?_
          rw [hafter] at this ⊢
          simpa [hdue, bne] using this
      | false =>
          have := ih (kept ++ [sleeper]) n (by simp [hn]) hd
          simpa [hdue, bne] using this

theorem Rested.wake (h : n.Rested) {d : Nat} (hready : n.ready = []) (hd : n.clock ≤ d)
    (hfirst : ∀ sleeper ∈ n.asleep, d ≤ sleeper.1) :
    n.LeadsOnTime (n.wake d) ∧ (n.wake d).Rested := by
  have helapse : n.after (.elapse (d - n.clock)) = { n with clock := d } := by
    simp [after, Nat.add_sub_cancel' hd]
  have htime : n.Punctual (.elapse (d - n.clock)) :=
    ⟨hready, fun sleeper hsleeper => by have := hfirst sleeper hsleeper; omega⟩
  constructor
  · refine .cons (h := .elapse (d - n.clock)) rfl htime ?_
    rw [helapse]
    exact leadsOnTime_wakeAll d [] n.asleep { n with clock := d } rfl rfl
  · refine ⟨fun sleeper hsleeper => ?_, h.paced⟩
    obtain ⟨hmem, hlater⟩ := List.mem_filter.mp hsleeper
    have hle := hfirst sleeper hmem
    have hne : sleeper.1 ≠ d := by simpa using hlater
    change d < sleeper.1
    omega

theorem drain_ready (n : Node) : n.drain.ready = [] := by
  fun_induction Node.drain n with
  | case1 n h => exact h
  | case2 n t others hready ih => exact ih

-- Whether nobody wakes before a time. Who is late already does not wake any more.
def SleepsTill (n : Node) (d : Nat) : Prop :=
  ∀ sleeper ∈ n.asleep, n.clock < sleeper.1 → d ≤ sleeper.1

theorem sleepsTill_of_none {till : Nat} (h : n.nextWake? till = none) :
    n.SleepsTill (till + 1) := by
  intro sleeper hsleeper hlater
  have hout := List.filter_eq_nil_iff.mp (List.min?_eq_none_iff.mp h) sleeper.1
    (List.mem_map_of_mem hsleeper)
  simp only [hlater, decide_true, Bool.true_and, decide_eq_true_eq] at hout
  omega

theorem sleepsTill_of_some {till d : Nat} (h : n.nextWake? till = some d) : n.SleepsTill d := by
  intro sleeper hsleeper hlater
  by_cases hin : sleeper.1 ≤ till
  · refine (List.min?_eq_some_iff.mp h).2 _ (List.mem_filter.mpr ⟨List.mem_map_of_mem hsleeper, ?_⟩)
    simp [hlater, hin]
  · have := (nextWake?_bounds h).2
    omega

theorem Rested.nextWake?_none (h : n.Rested) {till : Nat} (hnone : n.nextWake? till = none) :
    ∀ sleeper ∈ n.asleep, max n.clock till < sleeper.1 := by
  intro sleeper hsleeper
  have hlater := h.asleep sleeper hsleeper
  exact Nat.max_lt.mpr ⟨hlater, sleepsTill_of_none hnone sleeper hsleeper hlater⟩

theorem Rested.nextWake?_some (h : n.Rested) {till d : Nat} (hsome : n.nextWake? till = some d) :
    ∀ sleeper ∈ n.asleep, d ≤ sleeper.1 := by
  intro sleeper hsleeper
  exact sleepsTill_of_some hsome sleeper hsleeper (h.asleep sleeper hsleeper)

theorem Rested.runUntil (h : n.Rested) (till : Nat) :
    n.LeadsOnTime (n.runUntil till) ∧ (n.runUntil till).Rested := by
  fun_induction Node.runUntil till n with
  | case1 n hnone =>
      obtain ⟨hdrain, hrested⟩ := h.drain
      have hlate := hrested.nextWake?_none hnone
      rw [drain_clock] at hlate
      have helapse : n.drain.after (.elapse (max n.clock till - n.clock)) =
          { n.drain with clock := max n.clock till } := by
        simp only [after, drain_clock]
        congr
        omega
      have htime : n.drain.Punctual (.elapse (max n.clock till - n.clock)) := by
        refine ⟨drain_ready n, fun sleeper hsleeper => ?_⟩
        have := hlate sleeper hsleeper
        rw [drain_clock]
        omega
      refine ⟨hdrain.trans ?_, ⟨hlate, hrested.paced⟩⟩
      rw [← helapse]
      exact .cons rfl htime (.refl _)
  | case2 n d hwake ih =>
      obtain ⟨hdrain, hrested⟩ := h.drain
      have hd := (nextWake?_bounds hwake).1
      obtain ⟨hwoken, hrested'⟩ :=
        hrested.wake (drain_ready n) (Nat.le_of_lt hd) (hrested.nextWake?_some hwake)
      exact ⟨(hdrain.trans hwoken).trans (ih hrested').1, (ih hrested').2⟩

theorem rested_new (context : Context) (source : Source) (relay : Relay) :
    (Node.new context source relay).Rested :=
  ⟨fun _ h => absurd h List.not_mem_nil, fun h => absurd h Bool.false_ne_true⟩

theorem Rested.start (h : n.Rested) (entries : List Sentinel) : (n.start entries).2.Rested := by
  obtain ⟨report, s, hstart, hafter⟩ | hafter := after_start_cases n entries
  · change (n.start entries).2 = _ at hafter
    rw [hafter]
    refine ⟨h.asleep, fun _ => ?_⟩
    obtain ⟨hperiod, hpos, -⟩ := Scheduler.start_period hstart
    change 0 < s.period.getD 0
    rw [hperiod]
    exact hpos
  · change (n.start entries).2 = _ at hafter
    rwa [hafter]

-- To let time pass is one way for things to happen in their times.
theorem Rested.sleep (h : n.Rested) (millis : Nat) :
    n.LeadsOnTime (n.sleep millis) ∧ (n.sleep millis).Rested := by
  unfold Node.sleep
  split
  · exact ⟨.refl n, h⟩
  · exact h.runUntil _

theorem Rested.sleeps (h : n.Rested) (waits : List Nat) :
    n.LeadsOnTime (waits.foldl (fun n millis => n.sleep millis) n) := by
  induction waits generalizing n with
  | nil => exact .refl n
  | cons millis rest ih =>
      obtain ⟨hfirst, hrested⟩ := h.sleep millis
      exact hfirst.trans (ih hrested)

-- So whatever holds when things happen in their times holds for a node that is started and left
-- alone.
theorem leadsOnTime_sleeps (context : Context) (source : Source) (relay : Relay)
    (entries : List Sentinel) (waits : List Nat) :
    ((Node.new context source relay).start entries).2.LeadsOnTime
      (waits.foldl (fun n millis => n.sleep millis)
        ((Node.new context source relay).start entries).2) :=
  ((rested_new context source relay).start entries).sleeps waits

end Node

end MetricRelay
