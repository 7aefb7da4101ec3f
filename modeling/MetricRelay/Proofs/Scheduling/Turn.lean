import MetricRelay.Proofs.Scheduling.Happening
import Mathlib.Data.List.Perm.Basic

namespace MetricRelay

-- The execution that a task goes on with.
def Task.work? : Task → Option Execution
  | collect e | close e _ _ => some e
  | _ => none

namespace Node

def tasks (n : Node) : List Task :=
  n.ready ++ n.asleep.map (·.2)

-- The tasks with the times at which they are to run.
def pending (n : Node) : List (Nat × Task) :=
  n.ready.map (n.clock, ·) ++ n.asleep

-- The executions whose collections are not over.
def live (n : Node) : List Execution :=
  n.tasks.filterMap Task.work?

-- How the collection of an execution ends if a task runs now. Rates that were read once do not end
-- it yet, and without any there is nothing left that could fail.
def ending? (n : Node) : Task → Option (Execution × Result)
  | .collect e =>
    match Collection.start n.context.node (.ofMillis n.clock) e.job.tasks e.job.ports n.source with
    | (.fault _, _) => some (e, .failure)
    | (.panic _, _) => some (e, .panic)
    | (.value p, _) => if p.firsts.isEmpty then some (e, .success) else none
  | .close e started p =>
    match (Collection.finish (.ofMillis (n.clock - started)) p n.source).1 with
    | .error _ => some (e, .failure)
    | .ok _ => some (e, .success)
  | _ => none

-- What an execution waits with for the second reading of its rates once its first half has run,
-- and what that half leaves of the source.
def halfway? (n : Node) (e : Execution) : Option (Collection.Pending × Source) :=
  match Collection.start n.context.node (.ofMillis n.clock) e.job.tasks e.job.ports n.source with
  | (.value p, source) => if p.firsts.isEmpty then none else some (p, source)
  | _ => none

-- The answer that a delivery waits for once it is begun.
def awaited (n : Node) (s : Subscriber) (x : Snapshot) : List (Nat × Task) :=
  match (n.relay.launch n.clock s x).1 with
  | .awaiting millis status => [(n.clock + millis, .reply s.key status)]
  | _ => []

-- What a task that runs brings about: what becomes ready, what goes to sleep, and the parts of the
-- node as they are afterwards.
structure Change where
  woken : List Task
  slept : List (Nat × Task)
  scheduler : Scheduler
  source : Source
  relay : Relay

def Change.spawned (c : Change) : List Task :=
  c.woken ++ c.slept.map (·.2)

-- The same with the times at which the tasks are to run, the present one for those that are ready.
def Change.timed (c : Change) (now : Nat) : List (Nat × Task) :=
  c.woken.map (now, ·) ++ c.slept

-- The node once the task at a place in the queue has run.
def change (n : Node) (place : Nat) (c : Change) : Node :=
  { n with
    ready := n.ready.eraseIdx place ++ c.woken
    asleep := n.asleep ++ c.slept
    scheduler := c.scheduler
    source := c.source
    relay := c.relay }

-- All that a task can bring about.
inductive Turn (n : Node) : Task → Change → Prop where
  | idle {epoch : Nat} (h : n.scheduler.isCurrent epoch = false) :
      n.Turn (.tick epoch) ⟨[], [], n.scheduler, n.source, n.relay⟩
  | scan {epoch : Nat} (h : n.scheduler.isCurrent epoch = true) :
      n.Turn (.tick epoch) ⟨(n.scheduler.scan n.clock).1.map Task.collect,
        [(n.clock + n.scheduler.period.getD 0, .tick epoch)], (n.scheduler.scan n.clock).2,
        n.source, n.relay⟩
  -- the rates are read once, and wait for their second reading
  | pause {e : Execution} {p : Collection.Pending} {source : Source}
      (h : n.halfway? e = some (p, source)) (hd : 0 < n.context.delay) :
      n.Turn (.collect e) ⟨[], [(n.clock + n.context.delay, .close e n.clock p)], n.scheduler,
        source, n.relay⟩
  | hurry {e : Execution} {p : Collection.Pending} {source : Source}
      (h : n.halfway? e = some (p, source)) (hd : n.context.delay = 0) :
      n.Turn (.collect e) ⟨[.close e n.clock p], [], n.scheduler, source, n.relay⟩
  | succeed {t : Task} {e : Execution} {x : Snapshot} (source : Source)
      (h : n.completion? t = some (e, x)) :
      n.Turn t ⟨if n.scheduler.isCurrent e.epoch then e.job.destinations.map (Task.deliver · x)
          else [], [],
        n.scheduler.conclude n.context.advanceOnFailure n.clock e .success, source, n.relay⟩
  | fail {t : Task} {e : Execution} {r : Result} (source : Source)
      (h : n.ending? t = some (e, r)) (hr : r ≠ .success) :
      n.Turn t ⟨[], [], n.scheduler.conclude n.context.advanceOnFailure n.clock e r, source,
        n.relay⟩
  | deliver (s : Subscriber) (x : Snapshot) :
      n.Turn (.deliver s x) ⟨[], n.awaited s x, n.scheduler, n.source,
        (n.relay.launch n.clock s x).2⟩
  | reply (key : String) (status : UInt16) :
      n.Turn (.reply key status) ⟨[], [], n.scheduler, n.source,
        n.relay.record key (isSuccess status) n.clock⟩

variable {n : Node}

-- A collection without rates is complete after its first half.
theorem finish_of_isEmpty (elapsed : Span) {p : Collection.Pending} (h : p.firsts.isEmpty = true)
    (s : Source) : Collection.finish elapsed p s = (.ok p.sofar, s) := by
  obtain ⟨sofar, firsts⟩ := p
  cases firsts with
  | nil => rfl
  | cons f rest => cases h

theorem ending?_of_completion? {t : Task} {e : Execution} {x : Snapshot}
    (h : n.completion? t = some (e, x)) : n.ending? t = some (e, .success) := by
  cases t with
  | collect e' =>
      simp only [completion?] at h
      split at h
      · rename_i p source hstart
        split at h
        · rename_i hempty
          rw [finish_of_isEmpty _ hempty] at h
          cases h
          simp only [ending?, hstart, hempty, if_true]
        · cases h
      · cases h
  | close e' started p =>
      simp only [completion?] at h
      simp only [ending?]
      cases hfinish : (Collection.finish (.ofMillis (n.clock - started)) p n.source).1 with
      | ok x' =>
          rw [hfinish] at h
          cases h
          rfl
      | error f =>
          rw [hfinish] at h
          cases h
  | tick | deliver | reply => cases h

theorem work?_of_ending? {t : Task} {e : Execution} {r : Result} (h : n.ending? t = some (e, r)) :
    t.work? = some e := by
  cases t with
  | collect e' =>
      simp only [ending?] at h
      split at h
      · cases h; rfl
      · cases h; rfl
      · split at h
        · cases h; rfl
        · cases h
  | close e' started p =>
      simp only [ending?] at h
      split at h <;> cases h <;> rfl
  | tick | deliver | reply => cases h

theorem ending?_of_halfway? {e : Execution} {p : Collection.Pending} {source : Source}
    (h : n.halfway? e = some (p, source)) : n.ending? (.collect e) = none := by
  simp only [halfway?] at h
  split at h
  · rename_i hstart
    split at h
    · cases h
    · rename_i hempty
      simp only [ending?, hstart]
      rw [if_neg hempty]
  · cases h

-- The part of a node that a change leaves at work.
def changed (n : Node) (c : Change) : Node :=
  { n with asleep := n.asleep ++ c.slept, scheduler := c.scheduler, source := c.source,
           relay := c.relay }

theorem turn_closing (n : Node) (e : Execution) (started : Nat) (p : Collection.Pending) :
    ∃ c, n.Turn (.close e started p) c ∧ n.closing e started p = (c.woken, n.changed c) := by
  cases hfinish : Collection.finish (.ofMillis (n.clock - started)) p n.source with
  | mk r source =>
      cases r with
      | error f =>
          refine ⟨_, .fail source (e := e) (r := .failure) ?_ (by decide), ?_⟩
          · simp only [ending?, hfinish]
          · simp only [closing, hfinish, changed, List.append_nil]
            rfl
      | ok x =>
          refine ⟨_, .succeed source (e := e) (x := x) ?_, ?_⟩
          · simp only [completion?, hfinish]
            rfl
          · simp only [closing, hfinish, changed, List.append_nil]
            rfl

theorem turn_collecting (n : Node) (e : Execution) :
    ∃ c, n.Turn (.collect e) c ∧ n.collecting e = (c.woken, n.changed c) := by
  cases hstart : Collection.start n.context.node (.ofMillis n.clock) e.job.tasks e.job.ports
      n.source with
  | mk r source =>
      cases r with
      | fault f =>
          refine ⟨_, .fail source (e := e) (r := .failure) ?_ (by decide), ?_⟩
          · simp only [ending?, hstart]
          · simp only [collecting, hstart, changed, List.append_nil]
            rfl
      | panic text =>
          refine ⟨_, .fail source (e := e) (r := .panic) ?_ (by decide), ?_⟩
          · simp only [ending?, hstart]
          · simp only [collecting, hstart, changed, List.append_nil]
            rfl
      | value p =>
          by_cases hempty : p.firsts.isEmpty = true
          · refine ⟨_, .succeed source (e := e) (x := p.sofar) ?_, ?_⟩
            · simp only [completion?, hstart, hempty, if_true, finish_of_isEmpty _ hempty]
              rfl
            · simp only [collecting, hstart, hempty, if_true, closing, finish_of_isEmpty _ hempty,
                changed, List.append_nil]
              rfl
          · have hhalf : n.halfway? e = some (p, source) := by
              simp only [halfway?, hstart, hempty, Bool.false_eq_true, if_false]
            by_cases hd : n.context.delay = 0
            · refine ⟨_, .hurry hhalf hd, ?_⟩
              simp only [collecting, hstart, hempty, Bool.false_eq_true, if_false, hd, if_true,
                changed, List.append_nil]
            · refine ⟨_, .pause hhalf (Nat.pos_of_ne_zero hd), ?_⟩
              simp only [collecting, hstart, hempty, Bool.false_eq_true, if_false, hd, changed,
                delayed]

theorem turn_perform (n : Node) (t : Task) :
    ∃ c, n.Turn t c ∧ n.perform t = (c.woken, n.changed c) := by
  cases t with
  | tick epoch =>
      cases hcurrent : n.scheduler.isCurrent epoch with
      | true =>
          refine ⟨_, .scan hcurrent, ?_⟩
          simp only [perform, ticking, hcurrent, if_true, delayed, changed]
          rfl
      | false =>
          refine ⟨_, .idle hcurrent, ?_⟩
          simp only [perform, ticking, hcurrent, Bool.false_eq_true, if_false, changed,
            List.append_nil]
  | collect e => exact turn_collecting n e
  | close e started p => exact turn_closing n e started p
  | deliver s x =>
      refine ⟨_, .deliver s x, ?_⟩
      simp only [perform, delivering, changed, awaited]
      cases n.relay.launch n.clock s x with
      | mk l r => cases l <;> simp [delayed]
  | reply key status =>
      refine ⟨_, .reply key status, ?_⟩
      simp only [perform, changed, List.append_nil]
      rfl

-- What the queue holds does not matter to the task that runs.
private theorem turn_of_ready {ready : List Task} {t : Task} {c : Change}
    (h : { n with ready := ready }.Turn t c) : n.Turn t c := by
  cases h with
  | idle hcurrent => exact .idle hcurrent
  | scan hcurrent => exact .scan hcurrent
  | pause hhalf hd => exact .pause hhalf hd
  | hurry hhalf hd => exact .hurry hhalf hd
  | succeed source hend =>
      refine .succeed source ?_
      cases t <;> exact hend
  | fail source hend hr =>
      refine .fail source ?_ hr
      cases t <;> exact hend
  | deliver s x => exact .deliver s x
  | reply key status => exact .reply key status

theorem exists_turn {place : Nat} {t : Task} (h : n.ready[place]? = some t) :
    ∃ c, n.Turn t c ∧ n.woken (.perform place) = c.woken ∧
      n.after (.perform place) = n.change place c := by
  obtain ⟨c, hturn, hperform⟩ := turn_perform { n with ready := n.ready.eraseIdx place } t
  refine ⟨c, turn_of_ready hturn, ?_, ?_⟩
  · rw [woken_perform h, hperform]
  · simp only [after, h, step, hperform, changed, change]

theorem after_perform_none {place : Nat} (h : n.ready[place]? = none) :
    n.after (.perform place) = n := by
  simp only [after, h]

-- The tasks besides the one at a place in the queue.
def others (n : Node) (place : Nat) : List Task :=
  n.ready.eraseIdx place ++ n.asleep.map (·.2)

theorem tasks_perm {place : Nat} {t : Task} (h : n.ready[place]? = some t) :
    n.tasks.Perm (t :: n.others place) := by
  obtain ⟨hlt, rfl⟩ := List.getElem?_eq_some_iff.mp h
  exact (List.getElem_cons_eraseIdx_perm hlt).symm.append_right _

theorem tasks_change (place : Nat) (c : Change) :
    (n.change place c).tasks.Perm (n.others place ++ c.spawned) := by
  simp only [tasks, change, others, Change.spawned, List.map_append, List.append_assoc]
  refine List.Perm.append_left _ ?_
  rw [← List.append_assoc, ← List.append_assoc]
  exact List.perm_append_comm.append_right _

theorem tasks_wake (place : Nat) : (n.after (.wake place)).tasks.Perm n.tasks := by
  simp only [after]
  split
  · rename_i t h
    obtain ⟨hlt, hget⟩ := List.getElem?_eq_some_iff.mp h
    have hperm := (List.getElem_cons_eraseIdx_perm hlt).map (·.2)
    rw [hget] at hperm
    simp only [tasks, List.append_assoc]
    exact hperm.append_left _
  · exact .refl _

theorem after_start_cases (n : Node) (entries : List Sentinel) :
    (∃ report s, n.scheduler.start entries n.clock = (.ok report, s) ∧
      n.after (.start entries) =
        { n with scheduler := s, ready := n.ready ++ [.tick s.epoch] }) ∨
    n.after (.start entries) = n := by
  simp only [after, Node.start_eq]
  split
  · rename_i report s hstart
    exact .inl ⟨report, s, hstart, rfl⟩
  · rename_i hstart
    rw [Scheduler.start_error hstart]
    exact .inr rfl

theorem scheduler_wake (place : Nat) : (n.after (.wake place)).scheduler = n.scheduler := by
  simp only [after]
  split <;> rfl

-- The executions besides the one that the task at a place goes on with.
def otherLive (n : Node) (place : Nat) : List Execution :=
  (n.others place).filterMap Task.work?

theorem live_perm {place : Nat} {t : Task} (h : n.ready[place]? = some t) :
    n.live.Perm (t.work?.toList ++ n.otherLive place) := by
  have hperm := (tasks_perm h).filterMap Task.work?
  cases hwork : t.work? with
  | none => rwa [List.filterMap_cons_none hwork] at hperm
  | some e => rwa [List.filterMap_cons_some hwork] at hperm

theorem live_change (place : Nat) {c : Change} {es : List Execution}
    (h : c.spawned.filterMap Task.work? = es) :
    (n.change place c).live.Perm (es ++ n.otherLive place) := by
  have hperm := (tasks_change (n := n) place c).filterMap Task.work?
  rw [List.filterMap_append, h] at hperm
  exact hperm.trans List.perm_append_comm

theorem work_collect (es : List Execution) :
    (es.map Task.collect).filterMap Task.work? = es := by
  simp [List.filterMap_map, Function.comp_def, Task.work?]

theorem work_deliver (ds : List Subscriber) (x : Snapshot) :
    (ds.map (Task.deliver · x)).filterMap Task.work? = [] := by
  simp [List.filterMap_map, Function.comp_def, Task.work?]

theorem work_awaited (s : Subscriber) (x : Snapshot) :
    ((n.awaited s x).map (·.2)).filterMap Task.work? = [] := by
  unfold awaited
  split <;> rfl

-- What running a task does to the executions that are not over: a tick adds those that it
-- dispatches, the end of a collection takes its own away, and otherwise they stay.
theorem Turn.live_cases {place : Nat} {t : Task} {c : Change} (hplace : n.ready[place]? = some t)
    (h : n.Turn t c) :
    (∃ epoch, t = .tick epoch ∧ n.scheduler.isCurrent epoch = true ∧
      c.scheduler = (n.scheduler.scan n.clock).2 ∧
      (n.change place c).live.Perm ((n.scheduler.scan n.clock).1 ++ n.live)) ∨
    (∃ e r, n.ending? t = some (e, r) ∧
      c.scheduler = n.scheduler.conclude n.context.advanceOnFailure n.clock e r ∧
      n.live.Perm (e :: (n.change place c).live)) ∨
    (n.ending? t = none ∧ c.scheduler = n.scheduler ∧ (n.change place c).live.Perm n.live) := by
  have hlive := live_perm hplace
  have hchange : ∀ es, c.spawned.filterMap Task.work? = es →
      (n.change place c).live.Perm (es ++ n.otherLive place) := fun _ hes => live_change place hes
  cases h with
  | idle hcurrent => exact .inr (.inr ⟨rfl, rfl, (hchange [] rfl).trans hlive.symm⟩)
  | scan hcurrent =>
      refine .inl ⟨_, rfl, hcurrent, rfl, (hchange _ ?_).trans (hlive.symm.append_left _)⟩
      rw [Change.spawned, List.filterMap_append, work_collect]
      exact List.append_nil _
  | @pause e _ _ hhalf hd | @hurry e _ _ hhalf hd =>
      exact .inr (.inr ⟨ending?_of_halfway? hhalf, rfl, (hchange [e] rfl).trans hlive.symm⟩)
  | succeed source hend =>
      have hresult := ending?_of_completion? hend
      rw [work?_of_ending? hresult] at hlive
      refine .inr (.inl ⟨_, _, hresult, rfl, hlive.trans (.cons _ (hchange [] ?_).symm)⟩)
      rw [Change.spawned, List.map_nil, List.append_nil]
      split
      · exact work_deliver _ _
      · rfl
  | fail source hend hr =>
      rw [work?_of_ending? hend] at hlive
      exact .inr (.inl ⟨_, _, hend, rfl, hlive.trans (.cons _ (hchange [] rfl).symm)⟩)
  | deliver s x =>
      exact .inr (.inr ⟨rfl, rfl, (hchange [] (work_awaited s x)).trans hlive.symm⟩)
  | reply key status => exact .inr (.inr ⟨rfl, rfl, (hchange [] rfl).trans hlive.symm⟩)

-- What a task that runs can leave behind, and when that is to run.
inductive Spawns (n : Node) : Task → Nat → Task → Prop where
  | again {epoch : Nat} (h : n.scheduler.isCurrent epoch = true) :
      n.Spawns (.tick epoch) (n.clock + n.scheduler.period.getD 0) (.tick epoch)
  | dispatch {epoch : Nat} {e : Execution} (h : n.scheduler.isCurrent epoch = true)
      (he : e ∈ (n.scheduler.scan n.clock).1) : n.Spawns (.tick epoch) n.clock (.collect e)
  | half {e : Execution} {p : Collection.Pending} {source : Source}
      (h : n.halfway? e = some (p, source)) :
      n.Spawns (.collect e) (n.clock + n.context.delay) (.close e n.clock p)
  | fanOut {t : Task} {e : Execution} {x : Snapshot} {s : Subscriber}
      (h : n.completion? t = some (e, x)) (hcurrent : n.scheduler.isCurrent e.epoch = true)
      (hs : s ∈ e.job.destinations) : n.Spawns t n.clock (.deliver s x)
  | await {s : Subscriber} {x : Snapshot} {due : Nat} {status : UInt16} :
      n.Spawns (.deliver s x) due (.reply s.key status)

theorem Turn.spawns {t : Task} {c : Change} (h : n.Turn t c) {due : Nat} {t' : Task}
    (ht' : (due, t') ∈ c.timed n.clock) : n.Spawns t due t' := by
  cases h with
  | idle => cases ht'
  | scan hcurrent =>
      rcases List.mem_append.mp ht' with ht' | ht'
      · obtain ⟨t, ht, heq⟩ := List.mem_map.mp ht'
        obtain ⟨e, he, rfl⟩ := List.mem_map.mp ht
        cases heq
        exact .dispatch hcurrent he
      · cases List.mem_singleton.mp ht'
        exact .again hcurrent
  | pause hhalf hd =>
      cases List.mem_singleton.mp ht'
      exact .half hhalf
  | hurry hhalf hd =>
      cases List.mem_singleton.mp ht'
      have hlate := Spawns.half hhalf
      rwa [hd] at hlate
  | @succeed _ e x source hend =>
      rw [Change.timed, List.append_nil] at ht'
      obtain ⟨t, ht, heq⟩ := List.mem_map.mp ht'
      cases heq
      split at ht
      · rename_i hcurrent
        obtain ⟨s, hs, rfl⟩ := List.mem_map.mp ht
        exact .fanOut hend hcurrent hs
      · cases ht
  | fail => cases ht'
  | deliver s x =>
      have ht : (due, t') ∈ n.awaited s x := ht'
      unfold awaited at ht
      split at ht
      · cases List.mem_singleton.mp ht
        exact .await
      · cases ht
  | reply => cases ht'

theorem exists_mem_timed {c : Change} {t : Task} (h : t ∈ c.spawned) (now : Nat) :
    ∃ due, (due, t) ∈ c.timed now := by
  rcases List.mem_append.mp h with h | h
  · exact ⟨now, List.mem_append_left _ (List.mem_map_of_mem h)⟩
  · obtain ⟨⟨due, t⟩, hmem, rfl⟩ := List.mem_map.mp h
    exact ⟨due, List.mem_append_right _ hmem⟩

theorem mem_others {place : Nat} {t : Task} (h : t ∈ n.others place) : t ∈ n.tasks := by
  rcases List.mem_append.mp h with h | h
  · exact List.mem_append_left _ (List.mem_of_mem_eraseIdx h)
  · exact List.mem_append_right _ h

-- Where a task comes from that a node has: it had it before, another task left it behind, or it is
-- the first tick of a new run.
theorem mem_tasks_after {h : Happening} {t' : Task} (ht' : t' ∈ (n.after h).tasks) :
    t' ∈ n.tasks ∨
    (∃ place t due, h = .perform place ∧ n.ready[place]? = some t ∧ n.Spawns t due t') ∨
    ∃ entries, h = .start entries ∧ t' = .tick (n.after h).scheduler.epoch := by
  cases h with
  | perform place =>
      cases hplace : n.ready[place]? with
      | none => exact .inl (by rwa [after_perform_none hplace] at ht')
      | some t =>
          obtain ⟨c, hturn, -, hafter⟩ := exists_turn hplace
          rw [hafter, (tasks_change place c).mem_iff] at ht'
          rcases List.mem_append.mp ht' with ht' | ht'
          · exact .inl (mem_others ht')
          · obtain ⟨due, ht'⟩ := exists_mem_timed ht' n.clock
            exact .inr (.inl ⟨place, t, due, rfl, hplace, hturn.spawns ht'⟩)
  | wake place => exact .inl ((tasks_wake place).mem_iff.mp ht')
  | start entries =>
      obtain ⟨report, s, -, hafter⟩ | hafter := after_start_cases n entries
      · rw [hafter] at ht' ⊢
        rcases List.mem_append.mp ht' with ht' | ht'
        · rcases List.mem_append.mp ht' with ht' | ht'
          · exact .inl (List.mem_append_left _ ht')
          · exact .inr (.inr ⟨entries, rfl, List.mem_singleton.mp ht'⟩)
        · exact .inl (List.mem_append_right _ ht')
      · exact .inl (by rwa [hafter] at ht')
  | stop | drop | listen | elapse | supply | relink => exact .inl ht'

-- Executions are dispatched by the ticks of their own run, while it is the present one.
theorem mem_dispatched {h : Happening} {e : Execution} (he : e ∈ n.dispatched h) :
    ∃ place epoch, h = .perform place ∧ n.ready[place]? = some (.tick epoch) ∧
      n.scheduler.isCurrent epoch = true ∧ e ∈ (n.scheduler.scan n.clock).1 := by
  obtain ⟨t', ht', hcollect⟩ := List.mem_filterMap.mp he
  cases h with
  | perform place =>
      cases hplace : n.ready[place]? with
      | none => simp [woken, hplace] at ht'
      | some t =>
          obtain ⟨c, hturn, hwoken, -⟩ := exists_turn hplace
          rw [hwoken] at ht'
          obtain ⟨due, htimed⟩ := exists_mem_timed (List.mem_append_left _ ht') n.clock
          cases hturn.spawns htimed with
          | dispatch hcurrent hscan =>
              cases hcollect
              exact ⟨place, _, rfl, hplace, hcurrent, hscan⟩
          | _ => cases hcollect
  | _ => cases ht'

-- What comes of some happenings one after the other.
def gather {α : Type} (what : Node → Happening → List α) (n : Node) : List Happening → List α
  | [] => []
  | h :: hs => what n h ++ gather what (n.after h) hs

theorem gather_concat {α : Type} (what : Node → Happening → List α) (hs : List Happening)
    (h : Happening) :
    gather what n (hs ++ [h]) = gather what n hs ++ what (n.follow hs) h := by
  induction hs generalizing n with
  | nil => exact List.append_nil _
  | cons h' rest ih =>
      rw [List.cons_append, gather, ih, gather, List.append_assoc]
      rfl

end Node

end MetricRelay
