import MetricRelay.Proofs.Isolation.Veil
import MetricRelay.Proofs.Scheduling.Cutoff

namespace MetricRelay

open Collection

namespace Veil

-- Whether an execution reads what its job reads, and stays behind the veil if that is hidden.
structure Fits (v : Veil) (s : Scheduler) (e : Execution) : Prop where
  confined : v.Confines e.job.tasks e.job.destinations
  job : s.isCurrent e.epoch = true → ∀ j ∈ s.active, j.id = e.job.id → j.tasks = e.job.tasks

-- What holds of a node whose hidden jobs stay behind the veil, whatever happens to it.
structure Sound (v : Veil) (n : Node) : Prop where
  flight : n.scheduler.SingleFlight n.live
  jobs : ∀ j ∈ n.scheduler.active, v.Confines j.tasks j.destinations
  work : ∀ e ∈ n.live, v.Fits n.scheduler e
  -- rates that wait for their second reading are among those asked for
  firsts : ∀ e started p, .close e started p ∈ n.tasks → ∀ f ∈ p.firsts, f.kind ∈ e.job.tasks
  addressed : n.relay.exporters.Addressed

variable {v : Veil} {n : Node}

theorem Confines.of_samePlan {j i : Job} (h : v.Confines i.tasks i.destinations)
    (hplan : j.SamePlan i) : v.Confines j.tasks j.destinations := by
  rw [hplan.tasks, hplan.destinations]
  exact h

theorem Fits.hidden {s : Scheduler} {e : Execution} (h : v.Fits s e)
    (he : v.showsJob e.job = false) :
    (∀ r, readsFor e.job.tasks r → v.readings r = true) ∧
      ∀ d ∈ e.job.destinations, v.urls d.key = true := by
  refine h.confined ?_
  simpa [showsJob] using he

namespace Sound

theorem new (context : Context) (source : Source) {relay : Relay}
    (hes : relay.exporters.Addressed) : v.Sound (.new context source relay) :=
  ⟨Node.singleFlight_new .., fun _ hj => absurd hj List.not_mem_nil,
    fun _ he => absurd he List.not_mem_nil, fun _ _ _ ht => absurd ht List.not_mem_nil, hes⟩

theorem fits (h : v.Sound n) {t : Task} (ht : t ∈ n.tasks) {e : Execution}
    (hwork : t.work? = some e) : v.Fits n.scheduler e :=
  h.work e (List.mem_filterMap.mpr ⟨t, ht, hwork⟩)

-- Running a task changes jobs but not their plans, and what it adds to the executions at work it
-- takes from a job.
private theorem plans_of_turn {place : Nat} {t : Task} {c : Node.Change}
    (hplace : n.ready[place]? = some t) (hturn : n.Turn t c) :
    (∀ epoch, c.scheduler.isCurrent epoch = n.scheduler.isCurrent epoch) ∧
    (∀ j' ∈ c.scheduler.active, ∃ j ∈ n.scheduler.active, j'.SamePlan j) ∧
    ∀ e ∈ (n.change place c).live, e ∈ n.live ∨ ∃ j ∈ n.scheduler.active, e.job.SamePlan j := by
  obtain ⟨epoch, -, -, hscan, hlive⟩ | ⟨e, r, -, hconclude, hlive⟩ | ⟨-, hsame, hlive⟩ :=
    hturn.live_cases hplace
  · rw [hscan]
    refine ⟨fun _ => rfl, fun j' hj' => Scheduler.exists_plan_of_mem_scan hj', fun e he => ?_⟩
    rcases List.mem_append.mp (hlive.mem_iff.mp he) with he | he
    · exact .inr (Scheduler.exists_plan_of_dispatched he).2
    · exact .inl he
  · rw [hconclude]
    refine ⟨fun epoch => ?_, fun j' hj' => Scheduler.exists_plan_of_mem_conclude hj',
      fun e' he' => .inl (hlive.mem_iff.mpr (List.mem_cons_of_mem e he'))⟩
    obtain ⟨hrunning, hepoch⟩ :=
      Scheduler.conclude_run (s := n.scheduler) n.context.advanceOnFailure n.clock e r
    rw [Scheduler.isCurrent, Scheduler.isCurrent, hrunning, hepoch]
  · rw [hsame]
    exact ⟨fun _ => rfl, fun j' hj' => ⟨j', hj', rfl, rfl, rfl⟩,
      fun e he => .inl (hlive.mem_iff.mp he)⟩

private theorem firsts_perform (h : v.Sound n) {place : Nat} {e : Execution} {started : Nat}
    {p : Pending} (hmem : .close e started p ∈ (n.after (.perform place)).tasks) :
    ∀ f ∈ p.firsts, f.kind ∈ e.job.tasks := by
  obtain hmem | ⟨place', t, due, -, -, hspawns⟩ | ⟨entries, heq, -⟩ := Node.mem_tasks_after hmem
  · exact h.firsts e started p hmem
  · cases hspawns with
    | @half e p source hhalf =>
        simp only [Node.halfway?] at hhalf
        split at hhalf
        · rename_i p' source' hstart
          split at hhalf
          · cases hhalf
          · cases hhalf
            exact gives_start_kinds n.context.node (.ofMillis n.clock) e.job.tasks e.job.ports
              n.source p (by rw [hstart])
        · cases hhalf
  · cases heq

theorem perform (h : v.Sound n) (place : Nat) : v.Sound (n.after (.perform place)) := by
  have hflight := Node.singleFlight_after h.flight (.perform place)
  have hfirsts : ∀ e started p, .close e started p ∈ (n.after (.perform place)).tasks →
      ∀ f ∈ p.firsts, f.kind ∈ e.job.tasks := fun _ _ _ => firsts_perform h
  have haddressed : (n.after (.perform place)).relay.exporters.Addressed :=
    (Node.relay_after n (.perform place)).1 ▸ h.addressed
  cases hplace : n.ready[place]? with
  | none => rwa [Node.after_perform_none hplace]
  | some t =>
      obtain ⟨c, hturn, -, hafter⟩ := Node.exists_turn hplace
      obtain ⟨hcurrent, hactive, hlive⟩ := plans_of_turn hplace hturn
      rw [hafter] at hflight hfirsts haddressed ⊢
      refine ⟨hflight, fun j' hj' => ?_, fun e he => ⟨?_, fun hnow j' hj' hid => ?_⟩, hfirsts,
        haddressed⟩
      · obtain ⟨j, hj, hplan⟩ := hactive j' hj'
        exact (h.jobs j hj).of_samePlan hplan
      · obtain he | ⟨j, hj, hplan⟩ := hlive e he
        · exact (h.work e he).confined
        · exact (h.jobs j hj).of_samePlan hplan
      · obtain ⟨j, hj, hplan⟩ := hactive j' hj'
        rw [hplan.tasks]
        obtain he | ⟨i, hi, hplan'⟩ := hlive e he
        · refine (h.work e he).job ?_ j hj (hplan.id.symm.trans hid)
          rw [← hcurrent]
          exact hnow
        · have hsame : j = i := List.inj_on_of_nodup_map h.flight.ids hj hi
            (hplan.id.symm.trans (hid.trans hplan'.id))
          rw [hsame, hplan'.tasks]

-- The jobs of a new run are new to all executions at work.
theorem start (h : v.Sound n) {entries : List Sentinel}
    (hentries : ∀ entry ∈ entries, entry.isActive = true →
      v.Confines entry.tasks entry.subscribers) : v.Sound (n.start entries).2 := by
  have hflight := Node.singleFlight_after h.flight (.start entries)
  obtain ⟨report, s, hstart, hafter⟩ | hafter := Node.after_start_cases n entries
  · change (n.start entries).2 = _ at hafter
    change (n.start entries).2.scheduler.SingleFlight (n.start entries).2.live at hflight
    rw [hafter] at hflight ⊢
    obtain ⟨-, hepoch, hactive⟩ := Scheduler.start_ok hstart
    have htasks : ({ n with scheduler := s, ready := n.ready ++ [.tick s.epoch] } : Node).live =
        n.live := by
      simp only [Node.live, Node.tasks, List.append_assoc, List.filterMap_append]
      rfl
    refine ⟨hflight, fun j hj => ?_, fun e he => ?_, fun e started p hmem => ?_, h.addressed⟩
    · rw [hactive, Scheduler.jobsFrom_eq] at hj
      obtain ⟨i, hi, rfl⟩ := List.mem_mapIdx.mp hj
      obtain ⟨hentry, hchosen⟩ := List.mem_filter.mp (List.getElem_mem hi)
      exact hentries _ hentry hchosen
    · rw [htasks] at he
      have hpast := h.flight.past e he
      refine ⟨(h.work e he).confined, fun hnow => ?_⟩
      have hnow : s.epoch = e.epoch := (Scheduler.isCurrent_iff.mp hnow).2
      omega
    · refine h.firsts e started p ?_
      simpa [Node.tasks] using hmem
  · change (n.start entries).2 = _ at hafter
    rwa [hafter]

theorem stop (h : v.Sound n) : v.Sound n.stop.2 := by
  have hflight : n.stop.2.scheduler.SingleFlight n.stop.2.live :=
    Node.singleFlight_after h.flight .stop
  have hkept : n.scheduler.stop.2 = n.scheduler ∨ n.scheduler.stop.2.active = [] := by
    unfold Scheduler.stop
    split
    · exact .inr rfl
    · exact .inl rfl
  obtain hsame | hnone := hkept
  · have hstop : n.stop.2 = n := by
      change { n with scheduler := n.scheduler.stop.2 } = n
      rw [hsame]
    rwa [hstop]
  · have hactive : n.stop.2.scheduler.active = [] := hnone
    refine ⟨hflight, fun j hj => ?_, fun e he => ⟨(h.work e he).confined, fun _ j hj => ?_⟩,
      h.firsts, h.addressed⟩ <;> (rw [hactive] at hj; cases hj)

theorem drop (h : v.Sound n) : v.Sound n.drop :=
  ⟨Node.singleFlight_after h.flight .drop, h.jobs,
    fun e he => ⟨(h.work e he).confined, fun hnow => absurd hnow Bool.false_ne_true⟩, h.firsts,
    h.addressed⟩

-- To wake somebody adds no task and takes none away.
theorem wake (h : v.Sound n) (d : Nat) : v.Sound (n.wake d) := by
  have htasks : (n.wake d).tasks.Perm n.tasks := by
    simp only [Node.wake, Node.tasks, List.append_assoc, ← List.map_append]
    exact ((List.filter_append_perm (fun e : Nat × Task => e.1 == d) n.asleep).map _).append_left _
  have hlive : (n.wake d).live.Perm n.live := htasks.filterMap _
  exact ⟨h.flight.perm hlive.symm, h.jobs, fun e he => h.work e (hlive.mem_iff.mp he),
    fun e started p hmem => h.firsts e started p (htasks.mem_iff.mp hmem), h.addressed⟩

end Sound

end Veil

end MetricRelay
