import MetricRelay.Proofs.Scheduling.Start

namespace MetricRelay

-- What can happen to a node next. Tasks run and wake up in any order and at any time, and what the
-- node reads and how its destinations react may change in between.
inductive Happening where
  -- runs the ready task at a place in the queue
  | perform (place : Nat)
  -- makes the sleeping task at a place ready
  | wake (place : Nat)
  | elapse (millis : Nat)
  | start (entries : List Sentinel)
  | stop
  | drop
  | listen (l : Listener)
  | supply (source : Source)
  | relink (network : Network)

def Happening.keepsRunning : Happening → Bool
  | .stop | .drop => false
  | _ => true

def Task.execution? : Task → Option Execution
  | .collect e => some e
  | _ => none

namespace Node

-- The node after something happened. Nothing happens at a place that is empty.
def after (n : Node) : Happening → Node
  | .perform place =>
    match n.ready[place]? with
    | some t => n.step t (n.ready.eraseIdx place)
    | none => n
  | .wake place =>
    match n.asleep[place]? with
    | some (_, t) => { n with ready := n.ready ++ [t], asleep := n.asleep.eraseIdx place }
    | none => n
  | .elapse millis => { n with clock := n.clock + millis }
  | .start entries => (n.start entries).2
  | .stop => n.stop.2
  | .drop => n.drop
  | .listen l => n.listen l
  | .supply source => { n with source := source }
  | .relink network => { n with relay := { n.relay with network := network } }

def follow (n : Node) (hs : List Happening) : Node :=
  hs.foldl after n

-- The tasks that become ready because another one runs.
def woken (n : Node) : Happening → List Task
  | .perform place =>
    match n.ready[place]? with
    | some t => ({ n with ready := n.ready.eraseIdx place }.perform t).1
    | none => []
  | _ => []

def dispatched (n : Node) (h : Happening) : List Execution :=
  (n.woken h).filterMap Task.execution?

-- All executions dispatched while things happen, in order.
def history (n : Node) : List Happening → List Execution
  | [] => []
  | h :: hs => n.dispatched h ++ (n.after h).history hs

-- The execution whose collection succeeds if a task runs now, with its snapshot.
def completion? (n : Node) : Task → Option (Execution × Snapshot)
  | .collect e =>
    match Collection.start n.context.node (.ofMillis n.clock) e.job.tasks e.job.ports n.source with
    | (.value p, source) =>
      if p.firsts.isEmpty then
        (Collection.finish (.ofMillis 0) p source).1.toOption.map (e, ·)
      else none
    | _ => none
  | .close e started p =>
    (Collection.finish (.ofMillis (n.clock - started)) p n.source).1.toOption.map (e, ·)
  | _ => none

variable {n : Node}

theorem follow_append (hs hs' : List Happening) : n.follow (hs ++ hs') = (n.follow hs).follow hs' :=
  List.foldl_append

theorem follow_concat (hs : List Happening) (h : Happening) :
    n.follow (hs ++ [h]) = (n.follow hs).after h :=
  follow_append hs [h]

theorem history_concat (hs : List Happening) (h : Happening) :
    n.history (hs ++ [h]) = n.history hs ++ (n.follow hs).dispatched h := by
  induction hs generalizing n with
  | nil => simp [history, follow]
  | cons h' rest ih =>
      rw [List.cons_append, history, ih, history, List.append_assoc]
      rfl

end Node

namespace Scheduler

theorem isCurrent_iff {s : Scheduler} {epoch : Nat} :
    s.isCurrent epoch = true ↔ s.running = true ∧ s.epoch = epoch := by
  simp [isCurrent]

-- What a scheduler goes through when something happens that is no stop, and the executions that
-- this dispatches.
inductive Step (advanceOnFailure : Bool) (now : Nat) (s : Scheduler) :
    List Execution → Scheduler → Prop where
  | rest : Step advanceOnFailure now s [] s
  | listen (l : Listener) : Step advanceOnFailure now s [] (s.listen l)
  | start {entries : List Sentinel} {report : StartReport} {s' : Scheduler}
      (h : s.start entries now = (.ok report, s')) : Step advanceOnFailure now s [] s'
  | conclude (e : Execution) (r : Result) :
      Step advanceOnFailure now s [] (s.conclude advanceOnFailure now e r)
  | scan (h : s.running = true) :
      Step advanceOnFailure now s (s.scan now).1 (s.scan now).2

end Scheduler

namespace Node

variable {n : Node}

private theorem filterMap_deliver (ds : List Subscriber) (x : Snapshot) :
    (ds.map (Task.deliver · x)).filterMap Task.execution? = [] := by
  simp [List.filterMap_map, Task.execution?, Function.comp_def]

theorem step_closing (n : Node) (e : Execution) (started : Nat) (p : Collection.Pending) :
    n.scheduler.Step n.context.advanceOnFailure n.clock
      ((n.closing e started p).1.filterMap Task.execution?)
      (n.closing e started p).2.scheduler := by
  simp only [closing]
  split
  · exact .conclude e .failure
  · split
    · rw [filterMap_deliver]
      exact .conclude e .success
    · exact .conclude e .success

theorem step_perform (n : Node) (t : Task) :
    n.scheduler.Step n.context.advanceOnFailure n.clock
      ((n.perform t).1.filterMap Task.execution?) (n.perform t).2.scheduler := by
  cases t with
  | tick epoch =>
      simp only [perform, ticking]
      split
      · rename_i hcurrent
        simp only [List.filterMap_map, Function.comp_def, Task.execution?, List.filterMap_some]
        exact .scan (Scheduler.isCurrent_iff.mp hcurrent).1
      · exact .rest
  | collect e =>
      have hclosing : ∀ source p, n.scheduler.Step n.context.advanceOnFailure n.clock
          (({ n with source := source }.closing e n.clock p).1.filterMap Task.execution?)
          ({ n with source := source }.closing e n.clock p).2.scheduler :=
        fun source p => step_closing { n with source := source } e n.clock p
      simp only [perform, collecting]
      split
      · exact .conclude e .failure
      · exact .conclude e .panic
      · split
        · exact hclosing _ _
        · split <;> exact .rest
  | close e started p => exact step_closing n e started p
  | deliver s x =>
      simp only [perform, delivering]
      split <;> exact .rest
  | reply key status => exact .rest

theorem step_after {h : Happening} (hh : h.keepsRunning = true) :
    n.scheduler.Step n.context.advanceOnFailure n.clock (n.dispatched h) (n.after h).scheduler := by
  cases h with
  | perform place =>
      simp only [dispatched, woken, after]
      split
      · exact step_perform { n with ready := n.ready.eraseIdx place } _
      · exact .rest
  | wake place =>
      simp only [after]
      split <;> exact .rest
  | start entries =>
      simp only [after, Node.start_eq]
      split
      · rename_i hstart
        exact .start hstart
      · rename_i hstart
        rw [Scheduler.start_error hstart]
        exact .rest
  | stop => cases hh
  | drop => cases hh
  | listen l => exact .listen l
  | elapse millis => exact .rest
  | supply source => exact .rest
  | relink network => exact .rest

theorem woken_perform {place : Nat} {t : Task} (h : n.ready[place]? = some t) :
    n.woken (.perform place) = ({ n with ready := n.ready.eraseIdx place }.perform t).1 := by
  simp only [woken, h]

theorem perform_tick {place epoch : Nat} (h : n.ready[place]? = some (.tick epoch))
    (hcurrent : n.scheduler.isCurrent epoch = true) :
    n.dispatched (.perform place) = (n.scheduler.scan n.clock).1 ∧
      (n.after (.perform place)).scheduler = (n.scheduler.scan n.clock).2 := by
  simp only [dispatched, woken, after, h, step, perform, ticking, hcurrent, if_true,
    List.filterMap_map, Function.comp_def, Task.execution?, List.filterMap_some]
  exact ⟨trivial, rfl⟩

-- A snapshot that completes an execution of the present run goes to all its destinations.
theorem perform_of_completion? {t : Task} {e : Execution} {x : Snapshot}
    (h : n.completion? t = some (e, x)) :
    (n.perform t).1 =
      if n.scheduler.isCurrent e.epoch then e.job.destinations.map (Task.deliver · x) else [] := by
  have hclosing : ∀ (n : Node) (e' : Execution) (started : Nat) (p : Collection.Pending),
      ((Collection.finish (.ofMillis (n.clock - started)) p n.source).1.toOption.map (e', ·)) =
        some (e, x) →
      (n.closing e' started p).1 =
        if n.scheduler.isCurrent e.epoch then e.job.destinations.map (Task.deliver · x)
        else [] := by
    intro n e' started p hfinish
    simp only [closing]
    split
    · rename_i hr
      rw [hr] at hfinish
      cases hfinish
    · rename_i hr
      rw [hr] at hfinish
      cases hfinish
      rfl
  cases t with
  | collect e' =>
      simp only [completion?] at h
      split at h
      · rename_i p source hstart
        split at h
        · rename_i hempty
          rw [← Nat.sub_self n.clock] at h
          simp only [perform, collecting, hstart, hempty, if_true]
          exact hclosing { n with source := source } e' n.clock p h
        · cases h
      · cases h
  | close e' started p => exact hclosing n e' started p h
  | tick | deliver | reply => cases h

theorem woken_of_completion? {place : Nat} {t : Task} {e : Execution} {x : Snapshot}
    (hplace : n.ready[place]? = some t) (h : n.completion? t = some (e, x)) :
    n.woken (.perform place) =
      if n.scheduler.isCurrent e.epoch then e.job.destinations.map (Task.deliver · x) else [] := by
  have hcompletion :
      { n with ready := n.ready.eraseIdx place }.completion? t = n.completion? t := by
    cases t <;> rfl
  rw [woken_perform hplace, perform_of_completion? (hcompletion.trans h)]

-- Whether a node gets from one state to another without a stop.
def LeadsTo (n n' : Node) : Prop :=
  ∃ hs : List Happening, (∀ h ∈ hs, h.keepsRunning = true) ∧ n.follow hs = n'

theorem LeadsTo.refl (n : Node) : n.LeadsTo n :=
  ⟨[], by simp, rfl⟩

theorem LeadsTo.cons {n' : Node} {h : Happening} (hh : h.keepsRunning = true)
    (hrest : (n.after h).LeadsTo n') : n.LeadsTo n' := by
  obtain ⟨hs, hhs, hfollow⟩ := hrest
  exact ⟨h :: hs, by simpa [hh] using hhs, hfollow⟩

theorem LeadsTo.trans {n' n'' : Node} (h : n.LeadsTo n') (h' : n'.LeadsTo n'') :
    n.LeadsTo n'' := by
  obtain ⟨hs, hhs, rfl⟩ := h
  obtain ⟨hs', hhs', rfl⟩ := h'
  refine ⟨hs ++ hs', ?_, follow_append hs hs'⟩
  intro h hmem
  rcases List.mem_append.mp hmem with hmem | hmem
  · exact hhs h hmem
  · exact hhs' h hmem

-- To run what is ready, in its order, is one way in which things can happen.
theorem leadsTo_drain (n : Node) : n.LeadsTo n.drain := by
  fun_induction drain n with
  | case1 n _ => exact .refl n
  | case2 n t others hready ih =>
      have hafter : n.after (.perform 0) = n.step t others := by simp [after, hready]
      exact .cons (h := .perform 0) rfl (hafter ▸ ih)

private theorem leadsTo_wakeAll (d : Nat) (kept rest : List (Nat × Task)) (n : Node)
    (hn : n.asleep = kept ++ rest) :
    n.LeadsTo { n with
      ready := n.ready ++ (rest.filter fun e => e.1 == d).map (·.2)
      asleep := kept ++ rest.filter fun e => e.1 != d } := by
  induction rest generalizing kept n with
  | nil =>
      have hsame : n = { n with ready := n.ready ++ [], asleep := kept ++ [] } := by
        rw [List.append_nil n.ready, ← hn]
      exact hsame ▸ .refl n
  | cons sleeper rest ih =>
      cases hd : sleeper.1 == d with
      | true =>
          have hafter : n.after (.wake kept.length) =
              { n with ready := n.ready ++ [sleeper.2], asleep := kept ++ rest } := by
            simp [after, hn, List.eraseIdx_append_of_length_le]
          have := ih kept (n.after (.wake kept.length)) (by rw [hafter])
          refine .cons (h := .wake kept.length) rfl ?_
          rw [hafter] at this ⊢
          simpa [hd, bne] using this
      | false =>
          have := ih (kept ++ [sleeper]) n (by simp [hn])
          simpa [hd, bne] using this

-- So is to wake up all that sleep until the same time.
theorem leadsTo_wake {d : Nat} (hd : n.clock ≤ d) : n.LeadsTo (n.wake d) := by
  have helapse : n.after (.elapse (d - n.clock)) = { n with clock := d } := by
    simp [after, Nat.add_sub_cancel' hd]
  refine .cons (h := .elapse (d - n.clock)) rfl ?_
  rw [helapse]
  exact leadsTo_wakeAll d [] n.asleep { n with clock := d } rfl

theorem leadsTo_runUntil (till : Nat) (n : Node) : n.LeadsTo (n.runUntil till) := by
  fun_induction runUntil till n with
  | case1 n hnone =>
      have helapse : n.drain.after (.elapse (max n.clock till - n.clock)) =
          { n.drain with clock := max n.clock till } := by
        simp only [after, drain_clock]
        congr
        omega
      rw [← helapse]
      exact (leadsTo_drain n).trans (.cons rfl (.refl _))
  | case2 n d hwake ih =>
      have hd := (nextWake?_bounds hwake).1
      exact ((leadsTo_drain n).trans (leadsTo_wake (Nat.le_of_lt hd))).trans ih

-- Whatever holds however things happen thus holds when time passes.
theorem leadsTo_sleep (millis : Nat) (n : Node) : n.LeadsTo (n.sleep millis) := by
  unfold sleep
  split
  · exact .refl n
  · exact leadsTo_runUntil _ n

end Node

end MetricRelay
