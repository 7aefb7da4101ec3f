import MetricRelay.Proofs.Delivery.Traffic
import MetricRelay.Proofs.Scheduling.SingleFlight

namespace MetricRelay

-- Whether a task belongs to an export.
def Task.isExport : Task → Bool
  | deliver .. | reply .. => true
  | _ => false

-- The run that a task belongs to, unless it is part of an export.
def Task.epoch? : Task → Option Nat
  | tick epoch => some epoch
  | collect e | close e _ _ => some e.epoch
  | deliver .. | reply .. => none

theorem Task.epoch?_of_work? {t : Task} {e : Execution} (h : t.work? = some e) :
    t.epoch? = some e.epoch := by
  cases t <;> cases h <;> rfl

namespace Scheduler

-- Whether a run is over: a later one began, or nothing runs.
structure Over (s : Scheduler) (epoch : Nat) : Prop where
  past : epoch ≤ s.epoch
  ended : s.running = true → epoch < s.epoch

variable {s s' : Scheduler} {epoch : Nat}

theorem Over.isCurrent (h : s.Over epoch) : s.isCurrent epoch = false := by
  cases hrunning : s.running with
  | false => simp [Scheduler.isCurrent, hrunning]
  | true => simp [Scheduler.isCurrent, Nat.ne_of_gt (h.ended hrunning)]

theorem epoch_le_step {advanceOnFailure : Bool} {now : Nat} {es : List Execution}
    (h : s.Step advanceOnFailure now es s') : s.epoch ≤ s'.epoch := by
  cases h with
  | rest | listen | scan => exact Nat.le_refl _
  | start hstart => exact (start_ok hstart).2.1 ▸ Nat.le_succ _
  | conclude e r => exact Nat.le_of_eq (conclude_run ..).2.symm

theorem Over.step (h : s.Over epoch) {advanceOnFailure : Bool} {now : Nat} {es : List Execution}
    (hstep : s.Step advanceOnFailure now es s') : s'.Over epoch := by
  cases hstep with
  | rest | listen | scan => exact ⟨h.past, h.ended⟩
  | start hstart =>
      have hepoch := (start_ok hstart).2.1
      have hpast := h.past
      exact ⟨by omega, fun _ => by omega⟩
  | conclude e r =>
      obtain ⟨hrunning, hepoch⟩ := conclude_run (s := s) advanceOnFailure now e r
      exact ⟨hepoch ▸ h.past, fun hr => hepoch ▸ h.ended (hrunning ▸ hr)⟩

theorem epoch_le_stop (s : Scheduler) : s.epoch ≤ s.stop.2.epoch := by
  unfold stop
  split
  · exact Nat.le_succ _
  · exact Nat.le_refl _

theorem over_stop (h : epoch ≤ s.epoch) : s.stop.2.Over epoch := by
  unfold stop
  split
  · exact ⟨Nat.le_succ_of_le h, nofun⟩
  · rename_i hrunning
    exact ⟨h, fun hr => absurd hr hrunning⟩

theorem over_drop (h : epoch ≤ s.epoch) : s.drop.Over epoch :=
  ⟨h, nofun⟩

end Scheduler

namespace Node

open Scheduler

variable {n : Node} {epoch : Nat}

theorem epoch_le_after (n : Node) (h : Happening) :
    n.scheduler.epoch ≤ (n.after h).scheduler.epoch := by
  cases hh : h.keepsRunning with
  | true => exact epoch_le_step (step_after hh)
  | false =>
      cases h with
      | stop => exact epoch_le_stop n.scheduler
      | drop => exact Nat.le_refl _
      | _ => cases hh

theorem epoch_le_follow (n : Node) (hs : List Happening) :
    n.scheduler.epoch ≤ (n.follow hs).scheduler.epoch := by
  induction hs using List.reverseRecOn with
  | nil => exact Nat.le_refl _
  | append_singleton hs h ih =>
      rw [follow_concat]
      exact Nat.le_trans ih (epoch_le_after _ h)

theorem over_after (h : Happening) (hover : n.scheduler.Over epoch) :
    (n.after h).scheduler.Over epoch := by
  cases hh : h.keepsRunning with
  | true => exact hover.step (step_after hh)
  | false =>
      cases h with
      | stop => exact over_stop hover.past
      | drop => exact over_drop hover.past
      | _ => cases hh

-- A run that is over stays over, however often there is another start.
theorem over_follow (hs : List Happening) (hover : n.scheduler.Over epoch) :
    (n.follow hs).scheduler.Over epoch := by
  induction hs using List.reverseRecOn with
  | nil => exact hover
  | append_singleton hs h ih =>
      rw [follow_concat]
      exact over_after h ih

theorem over_of_interrupted {h : Happening} (hh : h.keepsRunning = false)
    (hpast : epoch ≤ n.scheduler.epoch) : (n.after h).scheduler.Over epoch := by
  cases h with
  | stop => exact over_stop hpast
  | drop => exact over_drop hpast
  | _ => cases hh

-- While a run goes on nobody has stopped it.
theorem keepsRunning_of_isCurrent {hs : List Happening} (hpast : epoch ≤ n.scheduler.epoch)
    (hcurrent : (n.follow hs).scheduler.isCurrent epoch = true) :
    ∀ h ∈ hs, h.keepsRunning = true := by
  intro h hmem
  obtain ⟨before, later, rfl⟩ := List.append_of_mem hmem
  rw [← Bool.not_eq_false]
  intro hstops
  have hover : ((n.follow before).after h).scheduler.Over epoch :=
    over_of_interrupted hstops (Nat.le_trans hpast (epoch_le_follow n before))
  have hend := (over_follow later hover).isCurrent
  rw [follow_append] at hcurrent
  change (((n.follow before).after h).follow later).scheduler.isCurrent epoch = true at hcurrent
  rw [hend] at hcurrent
  cases hcurrent

theorem epoch_of_mem_scan {s : Scheduler} {now : Nat} {e : Execution} (he : e ∈ (s.scan now).1) :
    e.epoch = s.epoch := by
  obtain ⟨j, -, rfl⟩ := exists_of_mem_scan he
  rfl

theorem epoch_of_mem_dispatched {h : Happening} {e : Execution} (he : e ∈ n.dispatched h) :
    e.epoch = n.scheduler.epoch := by
  obtain ⟨place, epoch, -, -, -, he⟩ := mem_dispatched he
  exact epoch_of_mem_scan he

theorem exists_mem_dispatched {hs : List Happening} {e : Execution} (he : e ∈ n.history hs) :
    ∃ before h later, hs = before ++ h :: later ∧ e ∈ (n.follow before).dispatched h := by
  induction hs generalizing n with
  | nil => cases he
  | cons h rest ih =>
      rcases List.mem_append.mp he with he | he
      · exact ⟨[], h, rest, rfl, he⟩
      · obtain ⟨before, h', later, rfl, hmem⟩ := ih he
        exact ⟨h :: before, h', later, rfl, hmem⟩

theorem epoch_le_of_mem_history {hs : List Happening} {e : Execution} (he : e ∈ n.history hs) :
    e.epoch ≤ (n.follow hs).scheduler.epoch := by
  obtain ⟨before, h, later, rfl, hmem⟩ := exists_mem_dispatched he
  rw [epoch_of_mem_dispatched hmem, follow_append]
  exact epoch_le_follow _ _

theorem ready_subset_tasks {place : Nat} {t : Task} (h : n.ready[place]? = some t) : t ∈ n.tasks :=
  List.mem_append_left _ (List.mem_of_getElem? h)

-- No task belongs to a run that is still to come.
def NoFuture (n : Node) : Prop :=
  ∀ t ∈ n.tasks, ∀ epoch, t.epoch? = some epoch → epoch ≤ n.scheduler.epoch

theorem NoFuture.after (hn : n.NoFuture) (h : Happening) : (n.after h).NoFuture := by
  intro t ht epoch hepoch
  obtain ht | ⟨place, t', due, rfl, hplace, hspawns⟩ | ⟨entries, -, rfl⟩ := mem_tasks_after ht
  · exact Nat.le_trans (hn t ht epoch hepoch) (epoch_le_after n h)
  · refine Nat.le_trans ?_ (epoch_le_after n _)
    cases hspawns with
    | again hcurrent => exact hn _ (ready_subset_tasks hplace) epoch hepoch
    | dispatch hcurrent he =>
        cases hepoch
        exact Nat.le_of_eq (epoch_of_mem_scan he)
    | half => exact hn _ (ready_subset_tasks hplace) epoch hepoch
    | fanOut => cases hepoch
    | await => cases hepoch
  · cases hepoch
    exact Nat.le_refl _

theorem noFuture_follow (context : Context) (source : Source) (relay : Relay)
    (hs : List Happening) : ((Node.new context source relay).follow hs).NoFuture := by
  induction hs using List.reverseRecOn with
  | nil => exact fun _ ht => nomatch ht
  | append_singleton hs h ih =>
      rw [follow_concat]
      exact ih.after h

-- An execution was dispatched, nobody stopped its run, and its collection completed with a snapshot
-- while that was the present run.
def FannedOut (n : Node) (hs : List Happening) (e : Execution) (x : Snapshot) : Prop :=
  ∃ before h meanwhile place t later,
    hs = before ++ h :: meanwhile ++ .perform place :: later ∧
    e ∈ (n.follow before).dispatched h ∧ (∀ h' ∈ meanwhile, h'.keepsRunning = true) ∧
    (n.follow (before ++ h :: meanwhile)).ready[place]? = some t ∧
    (n.follow (before ++ h :: meanwhile)).completion? t = some (e, x) ∧
    (n.follow (before ++ h :: meanwhile)).scheduler.isCurrent e.epoch = true

theorem FannedOut.concat {hs : List Happening} {e : Execution} {x : Snapshot}
    (hx : n.FannedOut hs e x) (h : Happening) : n.FannedOut (hs ++ [h]) e x := by
  obtain ⟨before, h', meanwhile, place, t, later, rfl, hrest⟩ := hx
  exact ⟨before, h', meanwhile, place, t, later ++ [h], by simp, hrest⟩

-- A completed collection of the present run was dispatched by it.
theorem fannedOut_of_completion? {hs : List Happening} {place : Nat} {t : Task} {e : Execution}
    {x : Snapshot} (he : e ∈ n.history hs) (hplace : (n.follow hs).ready[place]? = some t)
    (hend : (n.follow hs).completion? t = some (e, x))
    (hcurrent : (n.follow hs).scheduler.isCurrent e.epoch = true) :
    n.FannedOut (hs ++ [.perform place]) e x := by
  obtain ⟨before, h, meanwhile, rfl, hmem⟩ := exists_mem_dispatched he
  refine ⟨before, h, meanwhile, place, t, [], rfl, hmem, ?_, hplace, hend, hcurrent⟩
  have hpast : e.epoch ≤ ((n.follow before).after h).scheduler.epoch := by
    rw [epoch_of_mem_dispatched hmem]
    exact epoch_le_after _ h
  rw [follow_append] at hcurrent
  exact keepsRunning_of_isCurrent hpast hcurrent

-- Every execution whose collection is not over was dispatched.
theorem mem_history_of_work? {context : Context} {source : Source} {relay : Relay}
    {hs : List Happening} {t : Task} {e : Execution}
    (ht : t ∈ ((Node.new context source relay).follow hs).tasks) (hwork : t.work? = some e) :
    e ∈ (Node.new context source relay).history hs := by
  induction hs using List.reverseRecOn generalizing t with
  | nil => nomatch ht
  | append_singleton hs h ih =>
      rw [follow_concat] at ht
      rw [history_concat]
      obtain ht | ⟨place, t', due, rfl, hplace, hspawns⟩ | ⟨entries, -, rfl⟩ := mem_tasks_after ht
      · exact List.mem_append_left _ (ih ht hwork)
      · cases hspawns with
        | again => cases hwork
        | dispatch hcurrent he =>
            cases hwork
            rw [(perform_tick hplace hcurrent).1]
            exact List.mem_append_right _ he
        | half => exact List.mem_append_left _ (ih (ready_subset_tasks hplace) hwork)
        | fanOut => cases hwork
        | await => cases hwork
      · cases hwork

theorem Turn.relay {t : Task} {c : Change} (h : n.Turn t c) :
    c.relay = n.relay ∨
    (∃ s x, t = .deliver s x ∧ c.relay = (n.relay.launch n.clock s x).2) ∨
    ∃ key status, t = .reply key status ∧
      c.relay = n.relay.record key (isSuccess status) n.clock := by
  cases h with
  | deliver s x => exact .inr (.inl ⟨s, x, rfl, rfl⟩)
  | reply key status => exact .inr (.inr ⟨key, status, rfl, rfl⟩)
  | _ => exact .inl rfl

-- Nothing but deliveries makes requests.
theorem relay_after (n : Node) (h : Happening) :
    (n.after h).relay.exporters = n.relay.exporters ∧
    ∀ r ∈ (n.after h).relay.journal, r ∈ n.relay.journal ∨
      ∃ place s x, h = .perform place ∧ n.ready[place]? = some (.deliver s x) ∧
        n.relay.posting? r.1 s x = some r.2 := by
  cases h with
  | perform place =>
      cases hplace : n.ready[place]? with
      | none =>
          rw [after_perform_none hplace]
          exact ⟨rfl, fun r hr => .inl hr⟩
      | some t =>
          obtain ⟨c, hturn, -, hafter⟩ := exists_turn hplace
          rw [hafter]
          change c.relay.exporters = _ ∧ ∀ r ∈ c.relay.journal, _
          obtain hsame | ⟨s, x, rfl, hlaunch⟩ | ⟨key, status, rfl, hrecord⟩ := hturn.relay
          · rw [hsame]
            exact ⟨rfl, fun r hr => .inl hr⟩
          · rw [hlaunch, (n.relay.launch_eq n.clock s x).2]
            refine ⟨rfl, fun r hr => ?_⟩
            rcases List.mem_append.mp hr with hr | hr
            · rw [Option.mem_toList, Option.map_eq_some_iff] at hr
              obtain ⟨request, hposting, rfl⟩ := hr
              exact .inr ⟨place, s, x, rfl, hplace, hposting⟩
            · exact .inl hr
          · rw [hrecord]
            exact ⟨rfl, fun r hr => .inl hr⟩
  | wake place =>
      simp only [after]
      split <;> exact ⟨rfl, fun r hr => .inl hr⟩
  | start entries =>
      obtain ⟨report, s, -, hafter⟩ | hafter := after_start_cases n entries <;>
        rw [hafter] <;> exact ⟨rfl, fun r hr => .inl hr⟩
  | stop | drop | listen | elapse | supply | relink => exact ⟨rfl, fun r hr => .inl hr⟩

-- A delivery that a node has to make, and a request that it made, come from a snapshot of a run that
-- was the present one then.
structure Sourced (n : Node) (hs : List Happening) : Prop where
  deliveries : ∀ s x, .deliver s x ∈ (n.follow hs).tasks →
    ∃ e, n.FannedOut hs e x ∧ s ∈ e.job.destinations
  requests : ∀ r ∈ (n.follow hs).relay.journal, r ∈ n.relay.journal ∨
    ∃ e x s, n.FannedOut hs e x ∧ s ∈ e.job.destinations ∧
      n.relay.exporters s.kind (.ofMillis r.1) s x = .value r.2
  exporters : (n.follow hs).relay.exporters = n.relay.exporters

theorem encoded_of_posting? {r : Relay} {now : Nat} {s : Subscriber} {x : Snapshot}
    {request : Request} (h : r.posting? now s x = some request) :
    r.exporters s.kind (.ofMillis now) s x = .value request := by
  unfold Relay.posting? at h
  split at h
  · split at h
    · rename_i hvalue
      rw [hvalue, Option.some.inj h]
    · cases h
    · cases h
  · cases h

theorem Sourced.concat {context : Context} {source : Source} {relay : Relay} {hs : List Happening}
    (hn : (Node.new context source relay).Sourced hs) (h : Happening) :
    (Node.new context source relay).Sourced (hs ++ [h]) := by
  have hmore : ∀ {s : Subscriber} {x : Snapshot},
      (∃ e, (Node.new context source relay).FannedOut hs e x ∧ s ∈ e.job.destinations) →
      ∃ e, (Node.new context source relay).FannedOut (hs ++ [h]) e x ∧
        s ∈ e.job.destinations := by
    rintro s x ⟨e, hfan, hs⟩
    exact ⟨e, hfan.concat h, hs⟩
  obtain ⟨hexporters, hjournal⟩ := relay_after ((Node.new context source relay).follow hs) h
  refine ⟨?_, ?_, ?_⟩
  · intro s x ht
    rw [follow_concat] at ht
    obtain ht | ⟨place, t, due, rfl, hplace, hspawns⟩ | ⟨entries, -, htick⟩ := mem_tasks_after ht
    · exact hmore (hn.deliveries s x ht)
    · cases hspawns with
      | fanOut hend hcurrent hs =>
          have hwork := work?_of_ending? (ending?_of_completion? hend)
          have he := mem_history_of_work? (ready_subset_tasks hplace) hwork
          exact ⟨_, fannedOut_of_completion? he hplace hend hcurrent, hs⟩
    · cases htick
  · intro r hr
    rw [follow_concat] at hr
    obtain hr | ⟨place, s, x, rfl, hplace, hposting⟩ := hjournal r hr
    · obtain hold | ⟨e, x, s, hfan, hs, hencoded⟩ := hn.requests r hr
      · exact .inl hold
      · exact .inr ⟨e, x, s, hfan.concat h, hs, hencoded⟩
    · obtain ⟨e, hfan, hs⟩ := hn.deliveries s x (ready_subset_tasks hplace)
      refine .inr ⟨e, x, s, hfan.concat _, hs, ?_⟩
      rw [← hn.exporters]
      exact encoded_of_posting? hposting
  · rw [follow_concat, hexporters, hn.exporters]

theorem sourced_follow (context : Context) (source : Source) (relay : Relay)
    (hs : List Happening) : (Node.new context source relay).Sourced hs := by
  induction hs using List.reverseRecOn with
  | nil =>
      refine ⟨?_, fun r hr => Or.inl hr, rfl⟩
      intro s x ht
      nomatch ht
  | append_singleton hs h ih => exact ih.concat h

-- The end of a collection of a run that is over shows nowhere, and its first half leaves nothing
-- behind but the second.
theorem after_perform_over {place : Nat} {t : Task} {e : Execution}
    (hover : n.scheduler.Over e.epoch) (hplace : n.ready[place]? = some t)
    (hwork : t.work? = some e) :
    (n.after (.perform place)).relay = n.relay ∧
    (n.after (.perform place)).scheduler = n.scheduler ∧
    ∀ t' ∈ (n.after (.perform place)).tasks, t' ∈ n.tasks ∨ t'.work? = some e := by
  obtain ⟨c, hturn, -, hafter⟩ := exists_turn hplace
  refine ⟨?_, ?_, ?_⟩
  · rw [hafter]
    obtain hsame | ⟨s, x, rfl, -⟩ | ⟨key, status, rfl, -⟩ := hturn.relay
    · exact hsame
    · cases hwork
    · cases hwork
  · rw [hafter]
    change c.scheduler = n.scheduler
    obtain ⟨epoch, rfl, -⟩ | ⟨e', r, hend, hconclude, -⟩ | ⟨-, hsame, -⟩ := hturn.live_cases hplace
    · cases hwork
    · rw [work?_of_ending? hend] at hwork
      cases hwork
      simp [hconclude, Scheduler.conclude, hover.isCurrent]
    · exact hsame
  · intro t' ht'
    obtain ht' | ⟨place', t'', due, heq, hplace', hspawns⟩ | ⟨entries, heq, -⟩ := mem_tasks_after ht'
    · exact .inl ht'
    · cases heq
      rw [hplace] at hplace'
      cases hplace'
      cases hspawns with
      | half => exact .inr hwork
      | fanOut hend hcurrent hs =>
          rw [work?_of_ending? (ending?_of_completion? hend)] at hwork
          cases hwork
          rw [hover.isCurrent] at hcurrent
          cases hcurrent
      | _ => cases hwork
    · cases heq

theorem after_perform_tick_over {place : Nat} (hover : n.scheduler.Over epoch)
    (hplace : n.ready[place]? = some (.tick epoch)) :
    n.dispatched (.perform place) = [] ∧
      n.after (.perform place) = { n with ready := n.ready.eraseIdx place } := by
  simp [dispatched, woken, after, hplace, step, perform, ticking, hover.isCurrent]

theorem after_perform_deliver {place : Nat} {s : Subscriber} {x : Snapshot}
    (hplace : n.ready[place]? = some (.deliver s x)) :
    n.after (.perform place) = { n with
      ready := n.ready.eraseIdx place
      asleep := n.asleep ++ n.awaited s x
      relay := (n.relay.launch n.clock s x).2 } := by
  obtain ⟨c, hturn, -, hafter⟩ := exists_turn hplace
  cases hturn with
  | succeed source hend => cases hend
  | fail source hend => cases hend
  | deliver s x => rw [hafter, change, List.append_nil]

theorem after_perform_reply {place : Nat} {key : String} {status : UInt16}
    (hplace : n.ready[place]? = some (.reply key status)) :
    n.after (.perform place) = { n with
      ready := n.ready.eraseIdx place
      relay := n.relay.record key (isSuccess status) n.clock } := by
  obtain ⟨c, hturn, -, hafter⟩ := exists_turn hplace
  cases hturn with
  | succeed source hend => cases hend
  | fail source hend => cases hend
  | reply key status => rw [hafter, change, List.append_nil, List.append_nil]

-- The task that runs.
def ran (n : Node) : Happening → List Task
  | .perform place => n.ready[place]?.toList
  | _ => []

theorem tasks_subperm_after (n : Node) (h : Happening) :
    n.tasks.Subperm (n.ran h ++ (n.after h).tasks) := by
  cases h with
  | perform place =>
      cases hplace : n.ready[place]? with
      | none =>
          rw [after_perform_none hplace]
          exact (List.sublist_append_right _ _).subperm
      | some t =>
          obtain ⟨c, -, -, hafter⟩ := exists_turn hplace
          have hran : n.ran (.perform place) = [t] := by simp [ran, hplace]
          rw [hran, hafter]
          have hkept : (t :: n.others place).Subperm (t :: (n.change place c).tasks) := by
            refine (List.subperm_cons t).mpr ?_
            exact (List.sublist_append_left _ _).subperm.trans (tasks_change place c).symm.subperm
          exact (tasks_perm hplace).subperm.trans hkept
  | wake place => exact (tasks_wake place).symm.subperm
  | start entries =>
      obtain ⟨report, s, -, hafter⟩ | hafter := after_start_cases n entries
      · rw [hafter]
        exact ((List.sublist_append_left _ _).append_right _).subperm
      · rw [hafter]
        exact List.Subperm.refl _
  | stop | drop | listen | elapse | supply | relink => exact List.Subperm.refl _

-- Nothing is lost: what waits has run later or waits still.
theorem tasks_subperm_follow (n : Node) (hs : List Happening) :
    n.tasks.Subperm (gather ran n hs ++ (n.follow hs).tasks) := by
  induction hs generalizing n with
  | nil => exact List.Subperm.refl _
  | cons h rest ih =>
      rw [gather, List.append_assoc]
      exact (tasks_subperm_after n h).trans ((List.subperm_append_left _).mpr (ih (n.after h)))

-- Whether nothing but exports goes on while time passes and the outer world changes.
def exporting (n : Node) : List Happening → Bool
  | [] => true
  | h :: hs =>
    (match h with
      | .perform place => n.ready[place]?.all Task.isExport
      | .wake _ | .elapse _ | .supply _ | .relink _ => true
      | .start _ | .stop | .drop | .listen _ => false) &&
    (n.after h).exporting hs

def withScheduler (n : Node) (s : Scheduler) : Node :=
  { n with scheduler := s }

-- Exports do not look at the jobs.
theorem follow_exporting {hs : List Happening} (s : Scheduler) (h : n.exporting hs = true) :
    (n.withScheduler s).follow hs = (n.follow hs).withScheduler s := by
  induction hs generalizing n with
  | nil => rfl
  | cons h' rest ih =>
      simp only [exporting, Bool.and_eq_true] at h
      obtain ⟨hfirst, hrest⟩ := h
      have hafter : (n.withScheduler s).after h' = (n.after h').withScheduler s := by
        cases h' with
        | perform place =>
            cases hplace : n.ready[place]? with
            | none =>
                have hplace' : (n.withScheduler s).ready[place]? = none := hplace
                rw [after_perform_none hplace, after_perform_none hplace']
            | some t =>
                have hplace' : (n.withScheduler s).ready[place]? = some t := hplace
                cases t with
                | deliver s' x =>
                    rw [after_perform_deliver hplace, after_perform_deliver hplace']
                    rfl
                | reply key status =>
                    rw [after_perform_reply hplace, after_perform_reply hplace']
                    rfl
                | tick | collect | close => simp [hplace, Task.isExport] at hfirst
        | wake place =>
            simp only [after, withScheduler]
            split <;> rfl
        | elapse | supply | relink => rfl
        | _ => cases hfirst
      change ((n.withScheduler s).after h').follow rest = _
      rw [hafter, ih hrest]
      rfl

-- A stop cuts off whatever has not been fanned out, for good and however often there is another
-- start. An execution dispatched before it leaves relay and jobs as they are when its collection
-- ends, and a tick from before dispatches nothing. Exports from before are not lost: they run as
-- they do whatever the jobs, and as long as nothing else goes on everything is as without the stop
-- but the scheduler. So requests only ever come from executions whose run was the present one when
-- their collections completed.
theorem stop_cuts_off (context : Context) (source : Source) (relay : Relay)
    (past later : List Happening) :
    let start := Node.new context source relay
    let before := start.follow past
    let n := before.follow (.stop :: later)
    (∀ e ∈ start.history past, ∀ place t, n.ready[place]? = some t → t.work? = some e →
      let m := n.after (.perform place)
      m.relay = n.relay ∧ m.scheduler = n.scheduler ∧
        ∀ t' ∈ m.tasks, t' ∈ n.tasks ∨ t'.work? = some e) ∧
    (∀ epoch, .tick epoch ∈ before.tasks → ∀ place, n.ready[place]? = some (.tick epoch) →
      n.dispatched (.perform place) = [] ∧
        n.after (.perform place) = { n with ready := n.ready.eraseIdx place }) ∧
    before.tasks.Subperm (gather ran before (.stop :: later) ++ n.tasks) ∧
    (∀ place s x, n.ready[place]? = some (.deliver s x) →
      n.after (.perform place) = { n with
        ready := n.ready.eraseIdx place
        asleep := n.asleep ++ n.awaited s x
        relay := (n.relay.launch n.clock s x).2 }) ∧
    (∀ place key status, n.ready[place]? = some (.reply key status) →
      n.after (.perform place) = { n with
        ready := n.ready.eraseIdx place
        relay := n.relay.record key (isSuccess status) n.clock }) ∧
    (∀ hs, before.exporting hs = true →
      (before.after .stop).follow hs = (before.follow hs).withScheduler before.scheduler.stop.2) ∧
    ∀ r ∈ before.relay.journal, r ∈ relay.journal ∨
      ∃ e x s, start.FannedOut past e x ∧ s ∈ e.job.destinations ∧
        relay.exporters s.kind (.ofMillis r.1) s x = .value r.2 := by
  intro start before n
  have hover : ∀ epoch, epoch ≤ before.scheduler.epoch → n.scheduler.Over epoch :=
    fun epoch hpast => over_follow later (over_stop hpast)
  refine ⟨?_, ?_, tasks_subperm_follow _ _, ?_, ?_, ?_, (sourced_follow _ _ _ past).requests⟩
  · intro e he place t hplace hwork
    exact after_perform_over (hover _ (epoch_le_of_mem_history he)) hplace hwork
  · intro epoch htick place hplace
    have hpast : epoch ≤ before.scheduler.epoch :=
      noFuture_follow context source relay past _ htick epoch rfl
    exact after_perform_tick_over (hover _ hpast) hplace
  · intro place s x hplace
    exact after_perform_deliver hplace
  · intro place key status hplace
    exact after_perform_reply hplace
  · intro hs hhs
    exact follow_exporting before.scheduler.stop.2 hhs

end Node

end MetricRelay
