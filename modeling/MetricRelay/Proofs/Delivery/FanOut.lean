import MetricRelay.Proofs.Delivery.NodeTraffic
import MetricRelay.Proofs.Scheduling.Cutoff
import Mathlib.Algebra.GroupWithZero.Nat

namespace MetricRelay

-- The export that a task begins.
def Task.delivery? : Task → Option (Subscriber × Snapshot)
  | .deliver s x => some (s, x)
  | _ => none

-- An execution whose collection is over, how that ended, and the snapshot that is sent to the
-- destinations of the job: none unless the collection succeeded in the present run.
structure Completion where
  execution : Execution
  result : Result
  sent : Option Snapshot

namespace Completion

-- The exports that a completed execution is to make, one for each time that a destination is listed.
def exports (c : Completion) : List (Subscriber × Snapshot) :=
  c.sent.toList.flatMap fun x => c.execution.job.destinations.map (·, x)

-- How many of them go to a URL.
def exportsTo (url : String) (c : Completion) : Nat :=
  if c.sent.isSome then c.execution.job.destinations.countP (·.key == url) else 0

theorem countP_exports (c : Completion) (url : String) :
    c.exports.countP (·.1.key == url) = c.exportsTo url := by
  unfold exports exportsTo
  cases c.sent with
  | none => rfl
  | some x => simp [List.countP_map, Function.comp_def]

end Completion

namespace Node

variable {n : Node}

-- The snapshot that goes to the destinations of a job if a task runs now.
def sent? (n : Node) (t : Task) : Option Snapshot :=
  ((n.completion? t).filter fun c => n.scheduler.isCurrent c.1.epoch).map (·.2)

-- The execution whose collection a happening ends.
def ended (n : Node) : Happening → List Completion
  | .perform place =>
    match n.ready[place]? with
    | some t => ((n.ending? t).map fun e => ⟨e.1, e.2, n.sent? t⟩).toList
    | none => []
  | _ => []

-- The export that begins with a happening, and when.
def begun (n : Node) : Happening → List (Nat × Subscriber × Snapshot)
  | .perform place => ((n.ready[place]?.bind Task.delivery?).map (n.clock, ·)).toList
  | _ => []

-- The exports that are still to begin.
def queued (n : Node) : List (Subscriber × Snapshot) :=
  n.tasks.filterMap Task.delivery?

theorem delivery_collect (es : List Execution) :
    (es.map Task.collect).filterMap Task.delivery? = [] := by
  simp [List.filterMap_map, Task.delivery?]

theorem delivery_deliver (ds : List Subscriber) (x : Snapshot) :
    (ds.map (Task.deliver · x)).filterMap Task.delivery? = ds.map (·, x) := by
  simp [List.filterMap_map, Function.comp_def, Task.delivery?]

theorem delivery_awaited (s : Subscriber) (x : Snapshot) :
    ((n.awaited s x).map (·.2)).filterMap Task.delivery? = [] := by
  unfold awaited
  split <;> rfl

theorem delivery_of_work? {t : Task} {e : Execution} (h : t.work? = some e) :
    t.delivery? = none := by
  cases t <;> cases h <;> rfl

-- What a task that runs does to the executions at work and to the exports to come. If it ends a
-- collection its execution is over, and the snapshot goes to the destinations if it is to. Otherwise
-- no export is added, and what it goes on with stays at work beside what it dispatches.
theorem Turn.completes {t : Task} {c : Change} (h : n.Turn t c) :
    (n.ending? t = none ∧ c.spawned.filterMap Task.delivery? = [] ∧
      c.spawned.filterMap Task.work? = t.work?.toList ++ c.woken.filterMap Task.execution?) ∨
    ∃ e r, n.ending? t = some (e, r) ∧ c.woken.filterMap Task.execution? = [] ∧
      c.spawned.filterMap Task.work? = [] ∧
      c.spawned.filterMap Task.delivery? = (⟨e, r, n.sent? t⟩ : Completion).exports := by
  cases h with
  | idle hcurrent => exact .inl ⟨rfl, rfl, rfl⟩
  | scan hcurrent =>
      refine .inl ⟨rfl, ?_, ?_⟩
      · rw [Change.spawned, List.filterMap_append, delivery_collect]
        rfl
      · rw [Change.spawned, List.filterMap_append, work_collect]
        simp [List.filterMap_map, Function.comp_def, Task.execution?, Task.work?]
  | pause hhalf hd | hurry hhalf hd => exact .inl ⟨ending?_of_halfway? hhalf, rfl, rfl⟩
  | @succeed _ e x source hend =>
      have hexports : (⟨e, .success, n.sent? t⟩ : Completion).exports =
          if n.scheduler.isCurrent e.epoch then e.job.destinations.map (·, x) else [] := by
        unfold Completion.exports sent?
        rw [hend]
        cases hcurrent : n.scheduler.isCurrent e.epoch <;> simp [Option.filter, hcurrent]
      refine .inr ⟨e, .success, ending?_of_completion? hend, ?_, ?_, ?_⟩
      · split
        · simp [List.filterMap_map, Task.execution?]
        · rfl
      · rw [Change.spawned, List.map_nil, List.append_nil]
        split
        · exact work_deliver _ _
        · rfl
      · rw [hexports, Change.spawned, List.map_nil, List.append_nil]
        split
        · exact delivery_deliver _ _
        · rfl
  | @fail _ e r source hend hr =>
      have hsent : n.sent? t = none := by
        cases hcompletion : n.completion? t with
        | none => simp [sent?, hcompletion]
        | some c =>
            have hsuccess := ending?_of_completion? hcompletion
            rw [hend] at hsuccess
            cases hsuccess
            exact absurd rfl hr
      refine .inr ⟨e, r, hend, rfl, rfl, ?_⟩
      rw [hsent]
      rfl
  | deliver s x =>
      exact .inl ⟨rfl, delivery_awaited s x, work_awaited s x⟩
  | reply key status => exact .inl ⟨rfl, rfl, rfl⟩

-- What does not run a task adds none but ticks, and takes none away.
theorem filterMap_tasks_after {α : Type} {f : Task → Option α}
    (hf : ∀ epoch, f (.tick epoch) = none) {h : Happening} (hh : ∀ place, h ≠ .perform place) :
    ((n.after h).tasks.filterMap f).Perm (n.tasks.filterMap f) := by
  cases h with
  | perform place => exact absurd rfl (hh place)
  | wake place => exact (tasks_wake place).filterMap f
  | start entries =>
      obtain ⟨report, s, -, hafter⟩ | hafter := after_start_cases n entries
      · rw [hafter]
        simp [tasks, List.filterMap_append, List.filterMap_cons_none (hf s.epoch)]
      · rw [hafter]
  | stop | drop | listen | elapse | supply | relink => exact .refl _

theorem dispatched_perform {place : Nat} {c : Change} (h : n.woken (.perform place) = c.woken) :
    n.dispatched (.perform place) = c.woken.filterMap Task.execution? := by
  rw [dispatched, h]

theorem ended_perform {place : Nat} {t : Task} (h : n.ready[place]? = some t) :
    n.ended (.perform place) = ((n.ending? t).map fun e => ⟨e.1, e.2, n.sent? t⟩).toList := by
  simp only [ended, h]

theorem begun_perform {place : Nat} {t : Task} (h : n.ready[place]? = some t) :
    (n.begun (.perform place)).map (·.2) = t.delivery?.toList := by
  cases hdelivery : t.delivery? <;> simp [begun, h, hdelivery]

-- Every execution is at work until its collection ends, which it does once.
theorem live_after (n : Node) (h : Happening) :
    (n.live ++ n.dispatched h).Perm ((n.ended h).map Completion.execution ++ (n.after h).live) := by
  cases h with
  | perform place =>
      cases hplace : n.ready[place]? with
      | none => simp [dispatched, woken, ended, hplace, after_perform_none hplace]
      | some t =>
          obtain ⟨c, hturn, hwoken, hafter⟩ := exists_turn hplace
          rw [hafter, dispatched_perform hwoken, ended_perform hplace]
          have hlive := live_perm hplace
          obtain ⟨hend, -, hspawned⟩ | ⟨e, r, hend, hnone, hspawned, -⟩ := hturn.completes
          · rw [hend]
            refine (hlive.append_right _).trans (.trans ?_ (live_change place hspawned).symm)
            rw [List.append_assoc, List.append_assoc]
            exact List.perm_append_comm.append_left _
          · rw [hend, hnone, List.append_nil]
            rw [work?_of_ending? hend] at hlive
            exact hlive.trans ((live_change place hspawned).symm.append_left [e])
  | _ =>
      simp only [dispatched, woken, ended, List.filterMap_nil, List.append_nil, List.map_nil,
        List.nil_append]
      refine List.Perm.symm (filterMap_tasks_after (fun _ => rfl) ?_)
      intro place hplace
      cases hplace

-- Exports are made by executions whose collections succeed while their run is the present one, and
-- begin once.
theorem queued_after (n : Node) (h : Happening) :
    (n.queued ++ (n.ended h).flatMap Completion.exports).Perm
      ((n.begun h).map (·.2) ++ (n.after h).queued) := by
  cases h with
  | perform place =>
      cases hplace : n.ready[place]? with
      | none => simp [begun, ended, hplace, after_perform_none hplace]
      | some t =>
          obtain ⟨c, hturn, -, hafter⟩ := exists_turn hplace
          rw [hafter, ended_perform hplace, begun_perform hplace]
          have hbefore := (tasks_perm hplace).filterMap Task.delivery?
          have hchange := (tasks_change (n := n) place c).filterMap Task.delivery?
          rw [List.filterMap_append] at hchange
          obtain ⟨hend, hspawned, -⟩ | ⟨e, r, hend, -, -, hspawned⟩ := hturn.completes
          · rw [hspawned, List.append_nil] at hchange
            rw [hend]
            cases hdelivery : t.delivery? with
            | none =>
                rw [List.filterMap_cons_none hdelivery] at hbefore
                simpa [queued] using hbefore.trans hchange.symm
            | some d =>
                rw [List.filterMap_cons_some hdelivery] at hbefore
                simpa [queued] using hbefore.trans (hchange.symm.cons d)
          · have hnone := delivery_of_work? (work?_of_ending? hend)
            rw [List.filterMap_cons_none hnone] at hbefore
            rw [hspawned] at hchange
            rw [hend, hnone]
            simpa [queued] using (hbefore.append_right _).trans hchange.symm
  | _ =>
      simp only [ended, begun, List.flatMap_nil, List.append_nil, List.map_nil, List.nil_append]
      refine List.Perm.symm (filterMap_tasks_after (fun _ => rfl) ?_)
      nofun

theorem live_follow (n : Node) (hs : List Happening) :
    (n.live ++ n.history hs).Perm
      ((gather ended n hs).map Completion.execution ++ (n.follow hs).live) := by
  induction hs using List.reverseRecOn with
  | nil => simp [history, gather, follow]
  | append_singleton hs h ih =>
      rw [history_concat, gather_concat, follow_concat, ← List.append_assoc, List.map_append]
      refine (ih.append_right _).trans ?_
      rw [List.append_assoc, List.append_assoc]
      exact (live_after _ h).append_left _

theorem queued_follow (n : Node) (hs : List Happening) :
    (n.queued ++ (gather ended n hs).flatMap Completion.exports).Perm
      ((gather begun n hs).map (·.2) ++ (n.follow hs).queued) := by
  induction hs using List.reverseRecOn with
  | nil => simp [gather, follow]
  | append_singleton hs h ih =>
      rw [gather_concat, gather_concat, follow_concat, List.flatMap_append, ← List.append_assoc,
        List.map_append]
      refine (ih.append_right _).trans ?_
      rw [List.append_assoc, List.append_assoc]
      exact (queued_after _ h).append_left _

theorem gather_append {α : Type} (what : Node → Happening → List α) (hs more : List Happening) :
    gather what n (hs ++ more) = gather what n hs ++ gather what (n.follow hs) more := by
  induction hs generalizing n with
  | nil => rfl
  | cons h rest ih =>
      rw [List.cons_append, gather, ih, gather, List.append_assoc]
      rfl

theorem sent?_eq_some {t : Task} {x : Snapshot} :
    n.sent? t = some x ↔
      ∃ e, n.completion? t = some (e, x) ∧ n.scheduler.isCurrent e.epoch = true := by
  cases h : n.completion? t with
  | none => simp [sent?, h]
  | some c =>
      obtain ⟨e, x'⟩ := c
      cases hcurrent : n.scheduler.isCurrent e.epoch <;>
        simp [sent?, h, hcurrent, Option.filter]

theorem mem_ended {h : Happening} {c : Completion} (hc : c ∈ n.ended h) :
    ∃ place t, h = .perform place ∧ n.ready[place]? = some t ∧
      n.ending? t = some (c.execution, c.result) ∧ c.sent = n.sent? t := by
  cases h with
  | perform place =>
      cases hplace : n.ready[place]? with
      | none => simp [ended, hplace] at hc
      | some t =>
          rw [ended_perform hplace, Option.mem_toList, Option.map_eq_some_iff] at hc
          obtain ⟨⟨e, r⟩, hend, rfl⟩ := hc
          exact ⟨place, t, rfl, hplace, hend, rfl⟩
  | _ => cases hc

-- The snapshots that are sent are those of executions whose collections succeed while the run that
-- dispatched them goes on.
theorem mem_ended_sent {context : Context} {source : Source} {relay : Relay}
    {hs : List Happening} {e : Execution} {r : Result} {x : Snapshot} :
    ⟨e, r, some x⟩ ∈ gather ended (Node.new context source relay) hs ↔
      r = .success ∧ (Node.new context source relay).FannedOut hs e x := by
  constructor
  · intro hmem
    induction hs using List.reverseRecOn with
    | nil => cases hmem
    | append_singleton hs h ih =>
        rw [gather_concat] at hmem
        rcases List.mem_append.mp hmem with hmem | hmem
        · exact ⟨(ih hmem).1, (ih hmem).2.concat h⟩
        · obtain ⟨place, t, rfl, hplace, hend, hsent⟩ := mem_ended hmem
          obtain ⟨e', hcompletion, hcurrent⟩ := sent?_eq_some.mp hsent.symm
          rw [ending?_of_completion? hcompletion] at hend
          cases hend
          have hwork := work?_of_ending? (ending?_of_completion? hcompletion)
          have he := mem_history_of_work? (ready_subset_tasks hplace) hwork
          exact ⟨rfl, fannedOut_of_completion? he hplace hcompletion hcurrent⟩
  · rintro ⟨rfl, before, h, meanwhile, place, t, later, rfl, -, -, hplace, hcompletion, hcurrent⟩
    rw [gather_append, gather, ended_perform hplace, ending?_of_completion? hcompletion,
      sent?_eq_some.mpr ⟨e, hcompletion, hcurrent⟩]
    simp

-- An export begins when its task runs, and no other task begins one.
theorem events_cases (n : Node) (es : List Export) (h : Happening) :
    (∃ place s x, h = .perform place ∧ n.ready[place]? = some (.deliver s x) ∧
      n.events es h = [.begin s x] ∧ n.begun h = [(n.clock, s, x)]) ∨
    (n.begun h = [] ∧ (n.events es h = [] ∨
      ∃ ev, n.events es h = [ev] ∧ ∀ s x, ev ≠ .begin s x)) := by
  cases h with
  | perform place =>
      cases hplace : n.ready[place]? with
      | none => exact .inr ⟨by simp [begun, hplace], .inl (by simp only [events, hplace])⟩
      | some t =>
          cases t with
          | deliver s x =>
              refine .inl ⟨place, s, x, rfl, hplace, by simp only [events, hplace], ?_⟩
              simp [begun, hplace, Task.delivery?]
          | reply key status =>
              exact .inr ⟨by simp [begun, hplace, Task.delivery?],
                .inr ⟨.answer (waitingAt es key status), by simp only [events, hplace],
                  fun _ _ => Event.noConfusion⟩⟩
          | tick | collect | close =>
              exact .inr ⟨by simp [begun, hplace, Task.delivery?],
                .inl (by simp only [events, hplace])⟩
  | elapse millis => exact .inr ⟨rfl, .inr ⟨.elapse millis, rfl, fun _ _ => Event.noConfusion⟩⟩
  | relink network => exact .inr ⟨rfl, .inr ⟨.relink network, rfl, fun _ _ => Event.noConfusion⟩⟩
  | wake | start | stop | drop | listen | supply => exact .inr ⟨rfl, .inl rfl⟩

end Node

namespace Traffic

theorem subscribers_of_not_begin (t : Traffic) {ev : Event} (h : ∀ s x, ev ≠ .begin s x) :
    (t.after ev).exports.map Export.subscriber = t.exports.map Export.subscriber := by
  have hstep := t.step_after ev
  generalize t.after ev = t', t.noted ev = notes, t.sent ev = posts at hstep
  cases hstep with
  | begin s x => exact absurd rfl (h s x)
  | @finish _ number s f ok hev hget hwaiting hresult =>
      obtain ⟨hlt, heq⟩ := List.getElem?_eq_some_iff.mp hget
      refine List.ext_getElem? fun i => ?_
      by_cases hi : number = i
      · subst hi
        simp [hlt, heq]
      · simp [List.getElem?_set_ne hi]
  | rest => rfl

end Traffic

namespace Node

-- The exports of a node are those that it begins.
theorem subscribers_traffic (n : Node) (t : Traffic) (hs : List Happening) :
    (n.traffic t hs).exports.map Export.subscriber =
      t.exports.map Export.subscriber ++ (gather begun n hs).map (·.2.1) := by
  induction hs generalizing n t with
  | nil => exact (List.append_nil _).symm
  | cons h rest ih =>
      rw [traffic, ih, gather, List.map_append, ← List.append_assoc]
      refine congrArg (· ++ _) ?_
      obtain ⟨place, s, x, -, -, hevents, hbegun⟩ | ⟨hbegun, hevents | ⟨ev, hevents, hev⟩⟩ :=
        n.events_cases t.exports h
      · rw [hevents, hbegun]
        change (t.after (.begin s x)).exports.map Export.subscriber = _
        rw [Traffic.after_begin, List.map_append]
        rfl
      · rw [hevents, hbegun, List.map_nil, List.append_nil]
        rfl
      · rw [hevents, hbegun, List.map_nil, List.append_nil]
        exact t.subscribers_of_not_begin hev

-- An export that is over stays as it is.
theorem over_traffic {n : Node} {t : Traffic} {number : Nat} {s : Subscriber} {o : Outcome}
    (h : t.exports[number]? = some ⟨s, .over o⟩) (hs : List Happening) :
    (n.traffic t hs).exports[number]? = some ⟨s, .over o⟩ := by
  induction hs generalizing n t with
  | nil => exact h
  | cons happening rest ih =>
      refine ih ?_
      rw [Traffic.follow_exports h, Fate.foldl_meet_over]

-- With each export that is allowed and encoded goes a request to its URL.
theorem arrivals_traffic {t : Traffic} (hcarries : n.Carries t)
    (hes : n.relay.exporters.Addressed) {hs : List Happening}
    (henc : ∀ b ∈ gather begun n hs, ∃ request,
      n.relay.exporters b.2.1.kind (.ofMillis b.1) b.2.1 b.2.2 = .value request) (url : String) :
    ((n.follow hs).relay.arrivals url).length + t.countOf url Fate.isAllowed =
      (n.relay.arrivals url).length + (n.traffic t hs).countOf url Fate.isAllowed := by
  induction hs generalizing n t with
  | nil => rfl
  | cons h rest ih =>
      have hnext := hcarries.after h
      have hexporters : (n.after h).relay.exporters = n.relay.exporters := (relay_after n h).1
      have hrest := ih hnext (hexporters ▸ hes) fun b hb => by
        rw [hexporters]
        exact henc b (List.mem_append_right _ hb)
      have hstep : ((n.after h).relay.arrivals url).length + t.countOf url Fate.isAllowed =
          (n.relay.arrivals url).length +
            (t.follow (n.events t.exports h)).countOf url Fate.isAllowed := by
        rw [← hnext.relay_eq, ← hcarries.relay_eq]
        have hes' : t.relay.exporters.Addressed := hcarries.relay_eq ▸ hes
        have hsingle : ∀ ev, t.follow [ev] = t.after ev := fun _ => rfl
        obtain ⟨place, s, x, -, -, hevents, hbegun⟩ | ⟨-, hevents | ⟨ev, hevents, hev⟩⟩ :=
          n.events_cases t.exports h
        · rw [hevents, hsingle]
          refine Traffic.arrivals_after hes' (fun s' x' heq => ?_) url
          cases heq
          rw [hcarries.relay_eq, hcarries.clock_eq]
          exact henc _ (List.mem_append_left _ (by rw [hbegun]; exact List.mem_singleton_self _))
        · rw [hevents]
          rfl
        · rw [hevents, hsingle]
          exact Traffic.arrivals_after hes' (fun s x heq => absurd heq (hev s x)) url
      change (((n.after h).follow rest).relay.arrivals url).length + _ =
        _ + ((n.after h).traffic (t.follow (n.events t.exports h)) rest).countOf url _
      omega

-- No export is lost or made twice. Every execution that was dispatched is at work or has ended once,
-- and its snapshot is sent if it succeeded while its run went on. At any moment the exports begun
-- and those still to begin are one for each time that a destination is listed by an execution whose
-- snapshot was sent. An export that is over stays as it ended. If all snapshots can be encoded, the
-- requests to a URL are as many as the exports to it that began and were not skipped.
theorem exports_conserved (context : Context) (source : Source) (relay : Relay)
    (hs : List Happening) :
    let start := Node.new context source relay
    let n := start.follow hs
    let ends := gather ended start hs
    let begins := gather begun start hs
    let t := start.traffic ⟨0, relay, []⟩ hs
    (start.history hs).Perm (ends.map Completion.execution ++ n.live) ∧
    (∀ e r x, ⟨e, r, some x⟩ ∈ ends ↔ r = .success ∧ start.FannedOut hs e x) ∧
    (begins.map (·.2) ++ n.queued).Perm (ends.flatMap Completion.exports) ∧
    n.Carries t ∧ t.exports.map Export.subscriber = begins.map (·.2.1) ∧
    (∀ url, t.countOf url (fun _ => true) + n.queued.countP (·.1.key == url) =
      (ends.map (Completion.exportsTo url)).sum) ∧
    (∀ (number : Nat) (s : Subscriber) (o : Outcome), t.exports[number]? = some ⟨s, .over o⟩ →
      ∀ later,
      (start.traffic ⟨0, relay, []⟩ (hs ++ later)).exports[number]? = some ⟨s, .over o⟩) ∧
    (relay.exporters.Addressed →
      (∀ b ∈ begins, ∃ request,
        relay.exporters b.2.1.kind (.ofMillis b.1) b.2.1 b.2.2 = .value request) →
      ∀ url, (n.relay.arrivals url).length =
        (relay.arrivals url).length + t.countOf url Fate.isAllowed) := by
  intro start n ends begins t
  have hqueued : (begins.map (·.2) ++ n.queued).Perm (ends.flatMap Completion.exports) :=
    (queued_follow start hs).symm
  have hsubscribers : t.exports.map Export.subscriber = begins.map (·.2.1) :=
    subscribers_traffic start _ hs
  refine ⟨live_follow start hs, fun e r x => mem_ended_sent, hqueued,
    (carries_new context source relay).follow hs, hsubscribers, ?_, ?_, ?_⟩
  · intro url
    have hcount : t.countOf url (fun _ => true) = begins.countP (·.2.1.key == url) := by
      have hmap := congrArg (List.countP (·.key == url)) hsubscribers
      simpa [Traffic.countOf, List.countP_map, Function.comp_def] using hmap
    have htotal := hqueued.countP_eq (·.1.key == url)
    simp only [List.countP_append, List.countP_map, List.countP_flatMap, Function.comp_def,
      Completion.countP_exports] at htotal
    rw [hcount]
    exact htotal
  · intro number s o hover later
    rw [traffic_append]
    exact over_traffic hover later
  · intro hes henc url
    exact arrivals_traffic (carries_new context source relay) hes henc url

-- A job lists its destination twice. When the first of its exports has begun the other one is still
-- to begin.
theorem exports_conserved_twice :
    let north : Subscriber := ⟨"http://north", .http, none⟩
    let entry : Sentinel := ⟨[.gc], [north, north], -1, 1, []⟩
    let start : Node := .new ⟨"north", 500, false⟩ .idle (.new .standard)
    let hs : List Happening := [.start [entry], .perform 0, .perform 0, .perform 0]
    let t := start.traffic ⟨0, .new .standard, []⟩ hs
    t.countOf "http://north" (fun _ => true) = 1 ∧
      (start.follow hs).queued.countP (·.1.key == "http://north") = 1 ∧
      ((gather ended start hs).map (Completion.exportsTo "http://north")).sum = 2 ∧
      ((start.follow hs).relay.arrivals "http://north").length = 1 := by
  intro north entry start hs t
  have hall := exports_conserved ⟨"north", 500, false⟩ .idle (.new .standard) hs
  obtain ⟨-, -, -, -, -, hsum, -, hposted⟩ := hall
  have hbegun : (gather begun start hs).map (·.2.1) = [north] := by decide +kernel +zetaReduce
  have henc : ∀ b ∈ gather begun start hs, ∃ request,
      Exporters.standard b.2.1.kind (.ofMillis b.1) b.2.1 b.2.2 = .value request := by
    intro b hb
    have hnorth : b.2.1 = north := by
      have hmem := List.mem_map_of_mem (f := (·.2.1)) hb
      rw [hbegun] at hmem
      exact List.mem_singleton.mp hmem
    rw [hnorth]
    exact ⟨_, rfl⟩
  have hcount : t.countOf "http://north" (fun _ => true) = 1 := by decide +kernel +zetaReduce
  have hends : ((gather ended start hs).map (Completion.exportsTo "http://north")).sum = 2 := by
    decide +kernel +zetaReduce
  have hallowed : t.countOf "http://north" Fate.isAllowed = 1 := by decide +kernel +zetaReduce
  have hqueued := hsum "http://north"
  have harrivals := hposted Exporters.standard_addressed henc "http://north"
  refine ⟨hcount, ?_, hends, ?_⟩
  · change t.countOf "http://north" (fun _ => true) + _ = _ at hqueued
    rw [hcount] at hqueued
    exact Nat.add_left_cancel (hqueued.trans hends)
  · rw [← hallowed]
    exact harrivals.trans (Nat.zero_add _)

end Node

end MetricRelay
