import MetricRelay.Proofs.Delivery.ExportPairing
import MetricRelay.Proofs.Scheduling.Turn

namespace MetricRelay

-- The answer that a task takes in.
def Task.reply? : Task → Option (String × UInt16)
  | .reply key status => some (key, status)
  | _ => none

theorem Task.reply?_of_work? {t : Task} {e : Execution} (h : t.work? = some e) :
    t.reply? = none := by
  cases t <;> cases h <;> rfl

-- The answer that an export waits for.
def Export.reply? (e : Export) : Option (String × UInt16) :=
  match e.fate with
  | .awaiting status => some (e.subscriber.key, status)
  | _ => none

-- The place of the first export that waits for an answer.
def waitingAt (es : List Export) (key : String) (status : UInt16) : Nat :=
  es.findIdx fun e => e.reply? == some (key, status)

namespace Traffic

variable {t : Traffic}

-- The answers that will come, each with the export that waits for it.
def replies (t : Traffic) : List (String × UInt16) :=
  t.exports.filterMap Export.reply?

theorem replies_begin (s : Subscriber) (x : Snapshot) :
    (t.after (.begin s x)).replies =
      t.replies ++ (Export.reply? ⟨s, (t.relay.launch t.clock s x).1.fate⟩).toList := by
  simp only [after, Traffic.begin, replies, List.filterMap_append]
  cases h : Export.reply? ⟨s, (t.relay.launch t.clock s x).1.fate⟩ <;> simp [h]

-- The first export that waits for an answer is one that waits for it.
theorem getElem?_waitingAt {key : String} {status : UInt16} (h : (key, status) ∈ t.replies) :
    ∃ s : Subscriber, t.exports[waitingAt t.exports key status]? = some ⟨s, .awaiting status⟩ ∧
      s.key = key := by
  obtain ⟨e, hmem, hreply⟩ := List.mem_filterMap.mp h
  have hlt : waitingAt t.exports key status < t.exports.length :=
    List.findIdx_lt_length.mpr ⟨e, hmem, by rw [hreply]; exact beq_self_eq_true _⟩
  have hfound : (t.exports[waitingAt t.exports key status]).reply? = some (key, status) :=
    beq_iff_eq.mp (List.findIdx_getElem (w := hlt))
  rw [List.getElem?_eq_getElem hlt]
  generalize t.exports[waitingAt t.exports key status] = found at hfound
  obtain ⟨s, f⟩ := found
  cases f with
  | awaiting status' =>
      cases hfound
      exact ⟨s, rfl, rfl⟩
  | _ => cases hfound

-- An answer that came is waited for no longer.
theorem replies_answer {number : Nat} {s : Subscriber} {status : UInt16}
    (h : t.exports[number]? = some ⟨s, .awaiting status⟩) :
    t.replies.Perm ((s.key, status) :: (t.after (.answer number)).replies) := by
  obtain ⟨hlt, hget⟩ := List.getElem?_eq_some_iff.mp h
  have hbefore := (List.getElem_cons_eraseIdx_perm hlt).filterMap Export.reply?
  have hafter := (List.set_perm_cons_eraseIdx hlt
    (⟨s, .over (Relay.outcomeOf status)⟩ : Export)).filterMap Export.reply?
  have hwaits : Export.reply? ⟨s, .awaiting status⟩ = some (s.key, status) := rfl
  have hover : Export.reply? ⟨s, .over (Relay.outcomeOf status)⟩ = none := rfl
  rw [hget, List.filterMap_cons_some hwaits] at hbefore
  rw [List.filterMap_cons_none hover] at hafter
  rw [after_answer h]
  exact hbefore.symm.trans (hafter.symm.cons _)

end Traffic

namespace Node

variable {n : Node} {t : Traffic}

-- Whether the exports of some traffic are those of a node: the node has the same relay, and
-- its tasks take in the answers that the exports wait for.
structure Carries (n : Node) (t : Traffic) : Prop where
  clock_eq : t.clock = n.clock
  relay_eq : t.relay = n.relay
  replies : t.replies.Perm (n.tasks.filterMap Task.reply?)

theorem reply_collect (es : List Execution) :
    (es.map Task.collect).filterMap Task.reply? = [] := by
  simp [List.filterMap_map, Function.comp_def, Task.reply?]

theorem reply_deliver (ds : List Subscriber) (x : Snapshot) :
    (ds.map (Task.deliver · x)).filterMap Task.reply? = [] := by
  simp [List.filterMap_map, Function.comp_def, Task.reply?]

theorem reply_awaited (s : Subscriber) (x : Snapshot) :
    ((n.awaited s x).map (·.2)).filterMap Task.reply? =
      (Export.reply? ⟨s, (n.relay.launch n.clock s x).1.fate⟩).toList := by
  unfold awaited
  cases (n.relay.launch n.clock s x).1 <;> rfl

-- Most tasks neither take in an answer nor leave one to come.
theorem Carries.aside (h : n.Carries t) {place : Nat} {task : Task} {c : Change}
    (hplace : n.ready[place]? = some task) (htask : task.reply? = none)
    (hspawned : c.spawned.filterMap Task.reply? = []) (hrelay : c.relay = n.relay) :
    (n.change place c).Carries t := by
  have hbefore := (tasks_perm hplace).filterMap Task.reply?
  have hafter := (tasks_change (n := n) place c).filterMap Task.reply?
  rw [List.filterMap_cons_none htask] at hbefore
  rw [List.filterMap_append, hspawned, List.append_nil] at hafter
  exact ⟨h.clock_eq, h.relay_eq.trans hrelay.symm,
    h.replies.trans (hbefore.trans hafter.symm)⟩

theorem Carries.deliver (h : n.Carries t) {place : Nat} {s : Subscriber} {x : Snapshot}
    (hplace : n.ready[place]? = some (.deliver s x)) :
    (n.change place ⟨[], n.awaited s x, n.scheduler, n.source,
      (n.relay.launch n.clock s x).2⟩).Carries (t.after (.begin s x)) := by
  have hbefore := (tasks_perm hplace).filterMap Task.reply?
  have hafter := (tasks_change (n := n) place ⟨[], n.awaited s x, n.scheduler, n.source,
    (n.relay.launch n.clock s x).2⟩).filterMap Task.reply?
  rw [List.filterMap_cons_none rfl] at hbefore
  rw [List.filterMap_append, Change.spawned, List.nil_append, reply_awaited] at hafter
  refine ⟨h.clock_eq, ?_, ?_⟩
  · change (t.relay.launch t.clock s x).2 = (n.relay.launch n.clock s x).2
    rw [h.relay_eq, h.clock_eq]
  · rw [Traffic.replies_begin, h.relay_eq, h.clock_eq]
    exact ((h.replies.trans hbefore).append_right _).trans hafter.symm

theorem Carries.reply (h : n.Carries t) {place : Nat} {key : String} {status : UInt16}
    (hplace : n.ready[place]? = some (.reply key status)) :
    (n.change place ⟨[], [], n.scheduler, n.source,
      n.relay.record key (isSuccess status) n.clock⟩).Carries
        (t.after (.answer (waitingAt t.exports key status))) := by
  have hbefore := (tasks_perm hplace).filterMap Task.reply?
  have hafter := (tasks_change (n := n) place ⟨[], [], n.scheduler, n.source,
    n.relay.record key (isSuccess status) n.clock⟩).filterMap Task.reply?
  have htask : (Task.reply key status).reply? = some (key, status) := rfl
  rw [List.filterMap_cons_some htask] at hbefore
  rw [List.filterMap_append, Change.spawned, List.map_nil, List.append_nil, List.filterMap_nil,
    List.append_nil] at hafter
  obtain ⟨s, hget, rfl⟩ := Traffic.getElem?_waitingAt
    ((h.replies.trans hbefore).mem_iff.mpr List.mem_cons_self)
  have hanswer := Traffic.replies_answer hget
  refine ⟨?_, ?_, ?_⟩
  · rw [Traffic.after_answer hget]
    exact h.clock_eq
  · rw [Traffic.after_answer hget, h.relay_eq, h.clock_eq]
    rfl
  · have hrest := hanswer.symm.trans (h.replies.trans hbefore)
    exact (List.Perm.cons_inv hrest).trans hafter.symm

-- What a happening is to the exports of a node. An answer reaches the first of those that wait for
-- it; which one of them has it makes no difference.
def events (n : Node) (es : List Export) : Happening → List Event
  | .perform place =>
    match n.ready[place]? with
    | some (.deliver s x) => [.begin s x]
    | some (.reply key status) => [.answer (waitingAt es key status)]
    | _ => []
  | .elapse millis => [.elapse millis]
  | .relink network => [.relink network]
  | _ => []

theorem events_of_work? {place : Nat} {task : Task} {e : Execution}
    (hplace : n.ready[place]? = some task) (hwork : task.work? = some e) (es : List Export) :
    n.events es (.perform place) = [] := by
  cases task <;> cases hwork <;> simp only [events, hplace]

theorem Carries.perform (h : n.Carries t) (place : Nat) :
    (n.after (.perform place)).Carries (t.follow (n.events t.exports (.perform place))) := by
  cases hplace : n.ready[place]? with
  | none =>
      have hnone : n.events t.exports (.perform place) = [] := by simp only [events, hplace]
      rw [after_perform_none hplace, hnone]
      exact h
  | some task =>
      obtain ⟨c, hturn, -, hafter⟩ := exists_turn hplace
      rw [hafter]
      cases hturn with
      | idle | pause | hurry =>
          simp only [events, hplace]
          exact h.aside hplace rfl rfl rfl
      | scan =>
          simp only [events, hplace]
          refine h.aside hplace rfl ?_ rfl
          rw [Change.spawned, List.filterMap_append, reply_collect]
          rfl
      | succeed source hend =>
          have hwork := work?_of_ending? (ending?_of_completion? hend)
          rw [events_of_work? hplace hwork]
          refine h.aside hplace (Task.reply?_of_work? hwork) ?_ rfl
          rw [Change.spawned, List.map_nil, List.append_nil]
          split
          · exact reply_deliver _ _
          · rfl
      | fail source hend =>
          have hwork := work?_of_ending? hend
          rw [events_of_work? hplace hwork]
          exact h.aside hplace (Task.reply?_of_work? hwork) rfl rfl
      | deliver s x =>
          simp only [events, hplace]
          exact h.deliver hplace
      | reply key status =>
          simp only [events, hplace]
          exact h.reply hplace

theorem Carries.after (h : n.Carries t) (happening : Happening) :
    (n.after happening).Carries (t.follow (n.events t.exports happening)) := by
  cases happening with
  | perform place => exact h.perform place
  | wake place =>
      refine ⟨?_, ?_, h.replies.trans ((tasks_wake place).symm.filterMap _)⟩
      · simp only [Node.after]
        split <;> exact h.clock_eq
      · simp only [Node.after]
        split <;> exact h.relay_eq
  | elapse millis => exact ⟨congrArg (· + millis) h.clock_eq, h.relay_eq, h.replies⟩
  | start entries =>
      obtain ⟨report, s, -, hafter⟩ | hafter := after_start_cases n entries
      · rw [hafter]
        refine ⟨h.clock_eq, h.relay_eq, ?_⟩
        have htick : (Task.tick s.epoch).reply? = none := rfl
        change t.replies.Perm _
        simpa [tasks, List.filterMap_append, List.filterMap_cons_none htick] using h.replies
      · rw [hafter]
        exact h
  | relink network =>
      refine ⟨h.clock_eq, ?_, h.replies⟩
      exact congrArg (fun r : Relay => { r with network := network }) h.relay_eq
  | stop | drop | listen | supply => exact ⟨h.clock_eq, h.relay_eq, h.replies⟩

-- The exports of a node as things happen, from given ones on.
def traffic (n : Node) (t : Traffic) : List Happening → Traffic
  | [] => t
  | h :: hs => (n.after h).traffic (t.follow (n.events t.exports h)) hs

theorem traffic_append (t : Traffic) (hs more : List Happening) :
    n.traffic t (hs ++ more) = (n.follow hs).traffic (n.traffic t hs) more := by
  induction hs generalizing n t with
  | nil => rfl
  | cons h rest ih =>
      rw [List.cons_append, traffic, ih, traffic]
      rfl

-- The deliveries of a node are exports that share its relay, however things happen to it.
theorem Carries.follow (h : n.Carries t) (hs : List Happening) :
    (n.follow hs).Carries (n.traffic t hs) := by
  induction hs generalizing n t with
  | nil => exact h
  | cons happening rest ih => exact ih (h.after happening)

theorem carries_new (context : Context) (source : Source) (relay : Relay) :
    (Node.new context source relay).Carries ⟨0, relay, []⟩ :=
  ⟨rfl, rfl, .refl _⟩

end Node

end MetricRelay
