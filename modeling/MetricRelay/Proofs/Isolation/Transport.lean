import MetricRelay.Proofs.Scheduling.Regularity

namespace MetricRelay

-- How destinations answer: by the URL, the requests that came to it before, and the time.
def Transport : Type :=
  String → List (Nat × Request) → Nat → Reaction

namespace Network

-- The answers of a network that never changes.
def steady (w : Network) : Transport :=
  fun url _ _ => w.reaction url

theorem reaction_set (w : Network) (url : String) (r : Reaction) (other : String) :
    (w.set url r).reaction other = if url = other then r else w.reaction other := by
  by_cases heq : url = other
  · simp [set, reaction, heq]
  · have hsame : (w.reactions.filter fun e => e.1 != url).find? (fun e => e.1 == other) =
        w.reactions.find? fun e => e.1 == other := by
      rw [List.find?_filter]
      congr 1
      funext e
      by_cases he : e.1 = other
      · simp [he, Ne.symm heq]
      · simp [he]
    have hne : (url == other) = false := by simpa using heq
    simp only [set, reaction, List.find?_cons, hne, hsame, if_neg heq]

end Network

namespace Relay

-- The requests made so far to a URL, in order.
def requestsTo (r : Relay) (url : String) : List (Nat × Request) :=
  r.requests.filter fun e => e.2.url == url

-- The relay where a URL answers as a transport does now.
def facing (w : Transport) (now : Nat) (url : String) (r : Relay) : Relay :=
  if r.network.reaction url = w url (r.requestsTo url) now then r
  else { r with network := r.network.set url (w url (r.requestsTo url) now) }

end Relay

namespace Node

-- A node about to run a task: what it delivers meets the transport.
def facing (w : Transport) (n : Node) : Task → Node
  | .deliver s _ => { n with relay := n.relay.facing w n.clock s.key }
  | _ => n

theorem facing_ready (w : Transport) (n : Node) (t : Task) : (n.facing w t).ready = n.ready := by
  cases t <;> rfl

theorem facing_clock (w : Transport) (n : Node) (t : Task) : (n.facing w t).clock = n.clock := by
  cases t <;> rfl

-- Against a transport, what is ready runs and time passes as in `drain`, `runUntil` and `sleep`. With
-- a network that never changes these are the same (`sleepVia_steady`).
def drainVia (w : Transport) (n : Node) : Node :=
  match _h : n.ready with
  | [] => n
  | t :: others => ((n.facing w t).step t others).drainVia w
termination_by (n.ready.countP Task.isTick, Task.load n.ready)
decreasing_by
  have hlighter := step_lighter ((facing_ready w n t).trans _h)
  rwa [facing_ready] at hlighter

variable {w : Transport} {n : Node}

theorem drainVia_clock (w : Transport) (n : Node) : (n.drainVia w).clock = n.clock := by
  fun_induction drainVia w n with
  | case1 => rfl
  | case2 n t others _ ih => rw [ih, step_clock, facing_clock]

theorem drainVia_ready (w : Transport) (n : Node) : (n.drainVia w).ready = [] := by
  fun_induction drainVia w n with
  | case1 n h => exact h
  | case2 n t others hready ih => exact ih

def runUntilVia (w : Transport) (till : Nat) (n : Node) : Node :=
  match _h : (n.drainVia w).nextWake? till with
  | none => { n.drainVia w with clock := max n.clock till }
  | some d => ((n.drainVia w).wake d).runUntilVia w till
termination_by till - n.clock
decreasing_by
  have := nextWake?_bounds _h
  rw [drainVia_clock] at this
  simp only [wake]
  omega

def sleepVia (w : Transport) (millis : Nat) (n : Node) : Node :=
  if millis = 0 then n else n.runUntilVia w (n.clock + millis)

-- The executions that are dispatched meanwhile, with the time.
def drainDepartures (w : Transport) (n : Node) : List (Nat × Execution) :=
  match _h : n.ready with
  | [] => []
  | t :: others =>
    n.departed (.perform 0) ++ ((n.facing w t).step t others).drainDepartures w
termination_by (n.ready.countP Task.isTick, Task.load n.ready)
decreasing_by
  have hlighter := step_lighter ((facing_ready w n t).trans _h)
  rwa [facing_ready] at hlighter

def departuresUntil (w : Transport) (till : Nat) (n : Node) : List (Nat × Execution) :=
  n.drainDepartures w ++
    match _h : (n.drainVia w).nextWake? till with
    | none => []
    | some d => ((n.drainVia w).wake d).departuresUntil w till
termination_by till - n.clock
decreasing_by
  have := nextWake?_bounds _h
  rw [drainVia_clock] at this
  simp only [wake]
  omega

def sleepDepartures (w : Transport) (millis : Nat) (n : Node) : List (Nat × Execution) :=
  if millis = 0 then [] else n.departuresUntil w (n.clock + millis)

theorem drainVia_of_ready (h : n.ready = []) : n.drainVia w = n := by
  rw [drainVia]
  split <;> simp_all

theorem drainVia_of_cons {t : Task} {others : List Task} (h : n.ready = t :: others) :
    n.drainVia w = ((n.facing w t).step t others).drainVia w := by
  rw [drainVia]
  split <;> simp_all

theorem drainDepartures_of_ready (h : n.ready = []) : n.drainDepartures w = [] := by
  rw [drainDepartures]
  split <;> simp_all

theorem drainDepartures_of_cons {t : Task} {others : List Task} (h : n.ready = t :: others) :
    n.drainDepartures w =
      n.departed (.perform 0) ++ ((n.facing w t).step t others).drainDepartures w := by
  rw [drainDepartures]
  split <;> simp_all

theorem runUntilVia_eq (w : Transport) (till : Nat) (n : Node) :
    n.runUntilVia w till =
      match (n.drainVia w).nextWake? till with
      | none => { n.drainVia w with clock := max n.clock till }
      | some d => ((n.drainVia w).wake d).runUntilVia w till := by
  rw [runUntilVia]
  split <;> (rename_i h; simp only [h])

theorem departuresUntil_eq (w : Transport) (till : Nat) (n : Node) :
    n.departuresUntil w till = n.drainDepartures w ++
      match (n.drainVia w).nextWake? till with
      | none => []
      | some d => ((n.drainVia w).wake d).departuresUntil w till := by
  rw [departuresUntil]
  split <;> (rename_i h; simp only [h])

-- No task changes the network.
theorem network_after (n : Node) (place : Nat) :
    (n.after (.perform place)).relay.network = n.relay.network := by
  cases hplace : n.ready[place]? with
  | none => rw [after_perform_none hplace]
  | some t =>
      obtain ⟨c, hturn, -, hafter⟩ := exists_turn hplace
      rw [hafter]
      change c.relay.network = _
      obtain hsame | ⟨s, x, rfl, hlaunch⟩ | ⟨key, status, rfl, hrecord⟩ := hturn.relay
      · rw [hsame]
      · rw [hlaunch, (n.relay.launch_eq n.clock s x).2]
      · rw [hrecord]
        rfl

theorem place_of_ready {others : List Task} {t : Task} (hready : n.ready = t :: others) :
    n.ready[0]? = some t := by
  rw [hready]
  rfl

theorem after_of_ready {others : List Task} {t : Task} (hready : n.ready = t :: others) :
    n.after (.perform 0) = n.step t others := by
  simp [after, hready]

-- Only ticks of the run that goes on dispatch executions.
theorem dispatched_of_idle {others : List Task} {t : Task} (hready : n.ready = t :: others)
    (hidle : ∀ epoch, t = .tick epoch → n.scheduler.isCurrent epoch = false) :
    n.dispatched (.perform 0) = [] := by
  refine List.eq_nil_iff_forall_not_mem.mpr fun e he => ?_
  obtain ⟨place, epoch, hperform, hplace, hcurrent, -⟩ := mem_dispatched he
  cases hperform
  rw [hready] at hplace
  rw [hidle epoch (Option.some.inj hplace)] at hcurrent
  cases hcurrent

-- With a network that never changes, nothing is different.
theorem facing_steady (n : Node) (t : Task) : n.facing n.relay.network.steady t = n := by
  cases t with
  | deliver s x => simp [facing, Relay.facing, Network.steady]
  | _ => rfl

theorem drainVia_steady (n : Node) :
    n.drainVia n.relay.network.steady = n.drain ∧ n.drain.relay.network = n.relay.network := by
  fun_induction Node.drain n with
  | case1 n hready => exact ⟨drainVia_of_ready hready, rfl⟩
  | case2 n t others hready ih =>
      have hnetwork := network_after n 0
      rw [after_of_ready hready] at hnetwork
      rw [hnetwork] at ih
      refine ⟨?_, ih.2⟩
      rw [drainVia_of_cons hready, facing_steady]
      exact ih.1

theorem runUntilVia_steady (till : Nat) (n : Node) :
    n.runUntilVia n.relay.network.steady till = n.runUntil till := by
  fun_induction Node.runUntil till n with
  | case1 n hnone =>
      rw [runUntilVia_eq, (drainVia_steady n).1, hnone]
  | case2 n d hwake ih =>
      obtain ⟨hdrain, hnetwork⟩ := drainVia_steady n
      rw [runUntilVia_eq, hdrain, hwake]
      change (n.drain.wake d).runUntilVia n.relay.network.steady till = _
      rw [← hnetwork]
      exact ih

theorem sleepVia_steady (millis : Nat) (n : Node) :
    n.sleepVia n.relay.network.steady millis = n.sleep millis := by
  simp only [sleepVia, Node.sleep, runUntilVia_steady]

-- The same with bounds on the tasks that run at an instant, and on the instants. Unlike the others
-- these can be evaluated.
def drainWithin? (w : Transport) : Nat → Node → Option Node
  | 0, _ => none
  | tasks + 1, n =>
    match n.ready with
    | [] => some n
    | t :: others => drainWithin? w tasks ((n.facing w t).step t others)

def runWithin? (w : Transport) (tasks till : Nat) : Nat → Node → Option Node
  | 0, _ => none
  | instants + 1, n =>
    match drainWithin? w tasks n with
    | none => none
    | some drained =>
      match drained.nextWake? till with
      | none => some { drained with clock := max n.clock till }
      | some d => runWithin? w tasks till instants (drained.wake d)

theorem drainVia_of_within {n' : Node} {tasks : Nat} (h : drainWithin? w tasks n = some n') :
    n.drainVia w = n' := by
  induction tasks generalizing n with
  | zero => cases h
  | succ tasks ih =>
      unfold drainWithin? at h
      split at h
      · rename_i hready
        cases h
        exact drainVia_of_ready hready
      · rename_i t others hready
        rw [drainVia_of_cons hready]
        exact ih h

theorem runUntilVia_of_within {n' : Node} {tasks till instants : Nat}
    (h : runWithin? w tasks till instants n = some n') : n.runUntilVia w till = n' := by
  induction instants generalizing n with
  | zero => cases h
  | succ instants ih =>
      unfold runWithin? at h
      split at h
      · cases h
      · rename_i drained hdrain
        rw [runUntilVia_eq, drainVia_of_within hdrain]
        split at h
        · cases h
          rfl
        · exact ih h

theorem runUntilVia_clock (w : Transport) (till : Nat) (n : Node) :
    (n.runUntilVia w till).clock = max n.clock till := by
  fun_induction Node.runUntilVia w till n with
  | case1 => rfl
  | case2 n d hwake ih =>
      obtain ⟨hd, hdtill⟩ := nextWake?_bounds hwake
      rw [drainVia_clock] at hd
      rw [ih]
      change max d till = max n.clock till
      omega

end Node

-- What is done to a node from outside. All else follows by itself as time passes.
inductive Stimulus where
  | start (entries : List Sentinel)
  | stop
  | drop
  | listen (l : Listener)
  | sleep (millis : Nat)

namespace Node

def undergo (w : Transport) (n : Node) : Stimulus → Node
  | .start entries => (n.start entries).2
  | .stop => n.stop.2
  | .drop => n.drop
  | .listen l => n.listen l
  | .sleep millis => n.sleepVia w millis

-- Executions are dispatched only as time passes.
def departures (w : Transport) (n : Node) : Stimulus → List (Nat × Execution)
  | .sleep millis => n.sleepDepartures w millis
  | _ => []

-- The node after some stimuli, one after the other, and what it dispatches meanwhile.
def through (w : Transport) (n : Node) (ss : List Stimulus) : Node :=
  ss.foldl (undergo w) n

def departuresThrough (w : Transport) (n : Node) : List Stimulus → List (Nat × Execution)
  | [] => []
  | s :: ss => n.departures w s ++ (n.undergo w s).departuresThrough w ss

end Node

end MetricRelay
