import MetricRelay.Proofs.Isolation.Notes
import MetricRelay.Proofs.Isolation.Unwinding

namespace MetricRelay

namespace Veil

-- Whether the jobs that a stimulus starts stay behind the veil if they are hidden.
def Admits (v : Veil) (s : Stimulus) : Prop :=
  ∀ entries, s = .start entries → ∀ entry ∈ entries, entry.isActive = true →
    v.Confines entry.tasks entry.subscribers

-- The executions among those dispatched that show.
def seen (v : Veil) (ds : List (Nat × Execution)) : List (Nat × Execution) :=
  ds.filter fun d => v.showsJob d.2.job

variable {v : Veil} {n m : Node} {w w' : Transport}

theorem seen_append (ds more : List (Nat × Execution)) :
    v.seen (ds ++ more) = v.seen ds ++ v.seen more :=
  List.filter_append ..

-- Running what is ready, a task at a time, against a transport.
private theorem Sound.met (h : v.Sound n) (w : Transport) {others : List Task} {t : Task}
    (hready : n.ready = t :: others) : v.Sound ((n.facing w t).step t others) :=
  (h.facing w t).step ((Node.facing_ready w n t).trans hready)

private theorem Same.met_hidden (h : v.Same n m) (hn : v.Sound n) (w : Transport)
    {others : List Task} {t : Task} (hready : n.ready = t :: others) (ht : v.shows t = false) :
    v.Same ((n.facing w t).step t others) m :=
  ((facing_hidden n w ht).trans h).step_hidden (hn.facing w t)
    ((Node.facing_ready w n t).trans hready) ht

private theorem Same.met_seen (h : v.Same n m) (hn : v.Sound n) (hw : v.SameTransport w w')
    {others others' : List Task} {t : Task} (hready : n.ready = t :: others)
    (hready' : m.ready = t :: others') (ht : v.shows t = true) :
    v.Same ((n.facing w t).step t others) ((m.facing w' t).step t others') :=
  (h.facing hw ht).step_seen (hn.facing w t) ((Node.facing_ready w n t).trans hready)
    ((Node.facing_ready w' m t).trans hready') ht

theorem Sound.drainVia (h : v.Sound n) (w : Transport) : v.Sound (n.drainVia w) := by
  fun_induction Node.drainVia w n with
  | case1 => exact h
  | case2 n t others hready ih => exact ih (h.met w hready)

-- What is ready runs in the same way in both nodes, as far as it shows.
theorem Same.drainVia (h : v.Same n m) (hn : v.Sound n) (hm : v.Sound m)
    (hw : v.SameTransport w w') :
    v.Same (n.drainVia w) (m.drainVia w') ∧
      v.seen (n.drainDepartures w) = v.seen (m.drainDepartures w') := by
  revert h hn hm
  refine Node.drainVia_pairs w w' (fun _ => v.shows) ?done ?left ?right ?both ?ahead ?behind n m
  case done =>
    intro n m hnone hnone' h hn hm
    rw [Node.drainVia_of_ready hnone, Node.drainVia_of_ready hnone',
      Node.drainDepartures_of_ready hnone, Node.drainDepartures_of_ready hnone']
    exact ⟨h, rfl⟩
  case left =>
    intro n m t others hsome ht ih h hn hm
    rw [Node.drainVia_of_cons hsome, Node.drainDepartures_of_cons hsome,
      departed_hidden hsome ht]
    exact ih (h.met_hidden hn w hsome ht) (hn.met w hsome) hm
  case right =>
    intro n m t others hsome ht ih h hn hm
    rw [Node.drainVia_of_cons hsome, Node.drainDepartures_of_cons hsome,
      departed_hidden hsome ht]
    exact ih (h.symm.met_hidden hm w' hsome ht).symm hn (hm.met w' hsome)
  case both =>
    intro n m t others t' others' hsome hsome' ht ht' ih h hn hm
    obtain rfl : t = t' := by
      have hsame := h.ready
      rw [hsome, hsome', List.filter_cons_of_pos ht, List.filter_cons_of_pos ht'] at hsame
      exact List.head_eq_of_cons_eq hsame
    obtain ⟨hdrain, hseen⟩ :=
      ih (h.met_seen hn hw hsome hsome' ht) (hn.met w hsome) (hm.met w' hsome')
    rw [Node.drainVia_of_cons hsome, Node.drainVia_of_cons hsome',
      Node.drainDepartures_of_cons hsome, Node.drainDepartures_of_cons hsome', seen_append,
      seen_append, hseen]
    exact ⟨hdrain, congrArg (· ++ _) (departed_seen h hsome hsome')⟩
  case ahead =>
    intro n m t others hsome ht hnone h
    have hsame := h.ready
    rw [hsome, hnone, List.filter_cons_of_pos ht] at hsame
    cases hsame
  case behind =>
    intro n m t others hnone hsome ht h
    have hsame := h.ready
    rw [hnone, hsome, List.filter_cons_of_pos ht] at hsame
    cases hsame

theorem Same.wake (h : v.Same n m) (d : Nat) : v.Same (n.wake d) (m.wake d) := by
  have hwoken : ∀ es : List (Nat × Task), (((es.filter fun e => e.1 == d).map (·.2)).filter v.shows) =
      ((es.filter fun e => v.shows e.2).filter fun e => e.1 == d).map (·.2) := by
    intro es
    rw [List.filter_map, List.filter_filter, List.filter_filter]
    exact congrArg _ (List.filter_congr fun e _ => Bool.and_comm ..)
  have hkept : ∀ es : List (Nat × Task), ((es.filter fun e => e.1 != d).filter fun e => v.shows e.2) =
      (es.filter fun e => v.shows e.2).filter fun e => e.1 != d := by
    intro es
    rw [List.filter_filter, List.filter_filter]
    exact List.filter_congr fun e _ => Bool.and_comm ..
  refine { h with clock := rfl, ready := ?_, asleep := ?_ }
  · simp only [Node.wake, List.filter_append, hwoken, h.ready, h.asleep]
  · simp only [Node.wake, hkept, h.asleep]

-- Time passes in the same way in both nodes, as far as it shows.
theorem Same.runUntilVia (h : v.Same n m) (hn : v.Sound n) (hm : v.Sound m)
    (hw : v.SameTransport w w') (till : Nat) :
    v.Same (n.runUntilVia w till) (m.runUntilVia w' till) ∧
      v.seen (n.departuresUntil w till) = v.seen (m.departuresUntil w' till) := by
  have hclock := h.clock
  revert h hn hm
  refine Node.runUntilVia_pairs w w' till ?rest ?wake n m hclock
  case rest =>
    intro n m hclock hnone hnone' h hn hm
    obtain ⟨hdrain, hseen⟩ := h.drainVia hn hm hw
    rw [Node.runUntilVia_eq w till n, Node.runUntilVia_eq w' till m,
      Node.departuresUntil_eq w till n, Node.departuresUntil_eq w' till m, hnone, hnone',
      List.append_nil, List.append_nil, h.clock]
    exact ⟨{ hdrain with clock := rfl }, hseen⟩
  case wake =>
    intro n m d hclock hd hle hfirst hfirst' ih h hn hm
    obtain ⟨hdrain, hseen⟩ := h.drainVia hn hm hw
    obtain ⟨hrun, hnotes⟩ := Node.runUntilVia_wake Node.leaving hd hle hfirst
    obtain ⟨hrun', hnotes'⟩ := Node.runUntilVia_wake Node.leaving (hclock ▸ hd) hle hfirst'
    obtain ⟨hsame, hseen'⟩ := ih (hdrain.wake d) ((hn.drainVia w).wake d) ((hm.drainVia w').wake d)
    simp only [Node.drainDepartures_eq_notes, Node.departuresUntil_eq_notes] at hseen hseen' ⊢
    rw [← hrun, ← hrun', ← hnotes, ← hnotes', seen_append, seen_append, hseen, hseen']
    exact ⟨hsame, rfl⟩

theorem Same.sleepVia (h : v.Same n m) (hn : v.Sound n) (hm : v.Sound m)
    (hw : v.SameTransport w w') (millis : Nat) :
    v.Same (n.sleepVia w millis) (m.sleepVia w' millis) ∧
      v.seen (n.sleepDepartures w millis) = v.seen (m.sleepDepartures w' millis) := by
  simp only [Node.sleepVia, Node.sleepDepartures, ← h.clock]
  split
  · exact ⟨h, rfl⟩
  · exact h.runUntilVia hn hm hw _

theorem Same.start (h : v.Same n m) (entries : List Sentinel) :
    v.Same (n.start entries).2 (m.start entries).2 := by
  obtain ⟨hreport, hscheduler⟩ := h.scheduler.start entries n.clock
  obtain ⟨context, clock, ready, asleep, scheduler, source, relay⟩ := m
  obtain rfl : n.clock = clock := h.clock
  rw [Node.start_eq, Node.start_eq]
  dsimp only at hreport hscheduler ⊢
  generalize n.scheduler.start entries n.clock = out at hreport hscheduler
  generalize scheduler.start entries n.clock = out' at hreport hscheduler
  obtain ⟨r, s⟩ := out
  obtain ⟨r', s'⟩ := out'
  cases hreport
  cases r with
  | error f => exact { h with scheduler := hscheduler }
  | ok report =>
      have hepoch : s.epoch = s'.epoch := hscheduler.epoch
      refine ⟨h.context, rfl, ?_, h.asleep, hscheduler, h.source, h.relay⟩
      simp only [List.filter_append, h.ready, hepoch]

theorem Sound.runUntilVia (h : v.Sound n) (w : Transport) (till : Nat) :
    v.Sound (n.runUntilVia w till) := by
  fun_induction Node.runUntilVia w till n with
  | case1 n hnone =>
      have hdrain := h.drainVia w
      exact ⟨hdrain.flight, hdrain.jobs, hdrain.work, hdrain.firsts, hdrain.addressed⟩
  | case2 n d hwake ih => exact ih ((h.drainVia w).wake d)

theorem Sound.undergo (h : v.Sound n) (w : Transport) {s : Stimulus} (hs : v.Admits s) :
    v.Sound (n.undergo w s) := by
  cases s with
  | start entries => exact h.start (hs entries rfl)
  | stop => exact h.stop
  | drop => exact h.drop
  | listen l =>
      have hflight : (n.listen l).scheduler.SingleFlight (n.listen l).live :=
        Node.singleFlight_after h.flight (.listen l)
      exact ⟨hflight, h.jobs, fun e he => ⟨(h.work e he).confined, (h.work e he).job⟩, h.firsts,
        h.addressed⟩
  | sleep millis =>
      simp only [Node.undergo, Node.sleepVia]
      split
      · exact h
      · exact h.runUntilVia w _

theorem Same.undergo (h : v.Same n m) (hn : v.Sound n) (hm : v.Sound m)
    (hw : v.SameTransport w w') (s : Stimulus) :
    v.Same (n.undergo w s) (m.undergo w' s) ∧
      v.seen (n.departures w s) = v.seen (m.departures w' s) := by
  cases s with
  | start entries => exact ⟨h.start entries, rfl⟩
  | stop => exact ⟨{ h with scheduler := h.scheduler.stop.2 }, rfl⟩
  | drop => exact ⟨{ h with scheduler := h.scheduler.drop }, rfl⟩
  | listen l => exact ⟨{ h with scheduler := h.scheduler.listen l }, rfl⟩
  | sleep millis => exact h.sleepVia hn hm hw millis

-- Two runs that differ in what is hidden are the same as far as it shows.
theorem Same.through (h : v.Same n m) (hn : v.Sound n) (hm : v.Sound m)
    (hw : v.SameTransport w w') {ss : List Stimulus} (hadmits : ∀ s ∈ ss, v.Admits s) :
    v.Same (n.through w ss) (m.through w' ss) ∧
      v.seen (n.departuresThrough w ss) = v.seen (m.departuresThrough w' ss) := by
  induction ss generalizing n m with
  | nil => exact ⟨h, rfl⟩
  | cons s rest ih =>
      have hadmit : v.Admits s := hadmits s List.mem_cons_self
      obtain ⟨hsame, hseen⟩ := h.undergo hn hm hw s
      obtain ⟨hlater, hseen'⟩ := ih hsame (hn.undergo w hadmit) (hm.undergo w' hadmit)
        fun t ht => hadmits t (List.mem_cons_of_mem s ht)
      refine ⟨hlater, ?_⟩
      rw [Node.departuresThrough, Node.departuresThrough, seen_append, seen_append, hseen, hseen']

end Veil

end MetricRelay
