import MetricRelay.Proofs.Scheduling.Coherence

namespace MetricRelay

-- How it went is told as it was: by nothing if it went well, by the line of the fault, or by the
-- text of the panic.
theorem Listener.outcome_spec (l : Listener) (told : Nat) :
    (l.outcome told).name = l.name ∧
      ((l.outcome told).error = none ↔ l.conduct.telling told = .done) ∧
      (∀ f, l.conduct.telling told = .fault f → (l.outcome told).error = some f.message) ∧
      ∀ p, l.conduct.telling told = .panic p → (l.outcome told).error = some p.message := by
  cases h : l.conduct.telling told <;> simp [outcome, h]

-- Who comes to listen when something happens.
def Happening.newcomer? : Happening → Option Listener
  | .listen l => some l
  | _ => none

namespace Scheduler

theorem audience_start (s : Scheduler) (entries : List Sentinel) (now : Nat) :
    (s.start entries now).2.audience = s.audience := by
  rw [start_eq]
  split
  · rfl
  · dsimp only
    split
    · rfl
    · split <;> rfl

theorem audience_conclude (s : Scheduler) (advanceOnFailure : Bool) (now : Nat) (e : Execution)
    (r : Result) : (s.conclude advanceOnFailure now e r).audience = s.audience := by
  unfold Scheduler.conclude
  split <;> rfl

end Scheduler

namespace Node

open Scheduler

variable {n : Node}

-- The listeners of a node, each with how often it was told.
def audience (n : Node) : List (Listener × Nat) :=
  n.scheduler.audience.members

-- Whether the listeners are told when something happens: a stop tells them if there is a run.
def tells (n : Node) : Happening → Bool
  | .stop => n.scheduler.running
  | _ => false

-- How often they are told while things happen.
def tellings (n : Node) : List Happening → Nat
  | [] => 0
  | h :: hs => (n.tells h).toNat + (n.after h).tellings hs

-- Who comes to listen while things happen, each with how often the listeners are told after that.
def newcomers (n : Node) : List Happening → List (Listener × Nat)
  | [] => []
  | h :: hs =>
    (h.newcomer?.map (·, (n.after h).tellings hs)).toList ++ (n.after h).newcomers hs

theorem audience_perform (place : Nat) : (n.after (.perform place)).audience = n.audience := by
  cases hplace : n.ready[place]? with
  | none => rw [after_perform_none hplace]
  | some t =>
      obtain ⟨c, hturn, -, hafter⟩ := exists_turn hplace
      rw [hafter]
      change c.scheduler.audience.members = n.scheduler.audience.members
      obtain ⟨epoch, -, -, hscan, -⟩ | ⟨e, r, -, hconclude, -⟩ | ⟨-, hsame, -⟩ :=
        hturn.live_cases hplace
      · rw [hscan]
        rfl
      · rw [hconclude, audience_conclude]
      · rw [hsame]

theorem stop_of_running (h : n.scheduler.running = true) :
    n.stop.1 = n.audience.map (fun m => m.1.outcome m.2) ∧
      n.stop.2.audience = n.audience.map fun m => (m.1, m.2 + 1) := by
  simp [Node.stop, Scheduler.stop, h, Audience.tell, audience]

theorem stop_of_idle (h : n.scheduler.running = false) : n.stop = ([], n) := by
  simp [Node.stop, Scheduler.stop, h]

-- What one step does to the listeners: those who are there are told once more or not at all, all
-- together, and who comes has not been told yet.
theorem audience_after (n : Node) (h : Happening) :
    (n.after h).audience = n.audience.map (fun m => (m.1, m.2 + (n.tells h).toNat)) ++
      (h.newcomer?.map (·, 0)).toList := by
  have hquiet {n' : Node} (hsame : n'.audience = n.audience) :
      n'.audience = n.audience.map (fun m => (m.1, m.2 + 0)) ++ [] := by simp [hsame]
  cases h with
  | perform place => exact hquiet (audience_perform place)
  | wake place => exact hquiet (congrArg (·.audience.members) (scheduler_wake place))
  | start entries =>
      refine hquiet ?_
      obtain ⟨report, s, hstart, hafter⟩ | hafter := after_start_cases n entries
      · rw [hafter]
        change s.audience.members = n.scheduler.audience.members
        rw [← audience_start n.scheduler entries n.clock, hstart]
      · rw [hafter]
  | stop =>
      cases hrunning : n.scheduler.running with
      | true =>
          have htold := (stop_of_running hrunning).2
          simpa [after, tells, hrunning, Happening.newcomer?] using htold
      | false =>
          have hsame : (n.after .stop).audience = n.audience :=
            congrArg (·.2.audience) (stop_of_idle hrunning)
          simpa [tells, hrunning, Happening.newcomer?] using hsame
  | listen l =>
      have hadded : (n.after (.listen l)).audience = n.audience ++ [(l, 0)] := rfl
      simpa [tells, Happening.newcomer?] using hadded
  | drop | elapse | supply | relink => exact hquiet rfl

-- Who was there in the beginning was told whenever there was a run to stop, and who came while
-- things happened was told since then.
theorem audience_follow (n : Node) (hs : List Happening) :
    (n.follow hs).audience = n.audience.map (fun m => (m.1, m.2 + n.tellings hs)) ++
      n.newcomers hs := by
  induction hs generalizing n with
  | nil => simp [follow, tellings, newcomers]
  | cons h rest ih =>
      change ((n.after h).follow rest).audience = _
      rw [ih, audience_after, newcomers, tellings, List.map_append, List.map_map,
        List.append_assoc]
      simp only [Function.comp_def, Nat.add_assoc]
      cases h.newcomer? <;> simp

-- Their order is that of the happenings with which they came.
theorem map_newcomers (n : Node) (hs : List Happening) :
    (n.newcomers hs).map (·.1) = hs.filterMap Happening.newcomer? := by
  induction hs generalizing n with
  | nil => rfl
  | cons h rest ih =>
      rw [newcomers, List.map_append, ih]
      cases hnew : h.newcomer? <;> simp [hnew]

theorem getElem?_newcomers (n : Node) (before later : List Happening) (l : Listener) :
    (n.newcomers (before ++ Happening.listen l :: later))[
        (before.filterMap Happening.newcomer?).length]? =
      some (l, (n.follow (before ++ [Happening.listen l])).tellings later) := by
  induction before generalizing n with
  | nil => rfl
  | cons h rest ih =>
      have hfollow : n.follow (h :: (rest ++ [Happening.listen l])) =
          (n.after h).follow (rest ++ [Happening.listen l]) := rfl
      rw [List.cons_append, List.cons_append, hfollow, ← ih (n.after h), newcomers]
      cases hnew : h.newcomer? <;> simp [hnew]

-- There is a run if one was started and nothing ended it since.
theorem running_follow (h : n.scheduler.running = false) (hs : List Happening) :
    (n.follow hs).scheduler.running = true ↔ ∃ before entries report later,
      hs = before ++ Happening.start entries :: later ∧
      ((n.follow before).start entries).1 = .ok report ∧
      ∀ h ∈ later, h.keepsRunning = true := by
  constructor
  · intro hrunning
    induction hs using List.reverseRecOn with
    | nil =>
        change n.scheduler.running = true at hrunning
        rw [h] at hrunning
        cases hrunning
    | append_singleton hs last ih =>
        rw [follow_concat] at hrunning
        obtain ⟨entries, report, rfl, hout⟩ | ⟨hbefore, hkeep⟩ := (running_after _ _).mp hrunning
        · exact ⟨hs, entries, report, [], rfl, hout, by simp⟩
        · obtain ⟨before, entries, report, later, rfl, hout, hlater⟩ := ih hbefore
          refine ⟨before, entries, report, later ++ [last], by simp, hout, fun h hmem => ?_⟩
          rcases List.mem_append.mp hmem with hmem | hmem
          · exact hlater h hmem
          · rwa [List.mem_singleton.mp hmem]
  · rintro ⟨before, entries, report, later, rfl, hout, hlater⟩
    induction later using List.reverseRecOn with
    | nil =>
        rw [follow_concat]
        exact (running_after _ _).mpr (.inl ⟨entries, report, rfl, hout⟩)
    | append_singleton later last ih =>
        have hbefore := ih fun h hmem => hlater h (List.mem_append_left _ hmem)
        rw [← List.cons_append, ← List.append_assoc, follow_concat]
        exact (running_after _ _).mpr (.inr ⟨hbefore, hlater last (by simp)⟩)

-- Whatever was started and stopped and whoever came to listen in between, and however it goes with
-- each of the listeners: a stop that ends a run tells every listener once, in the order in which
-- they came, and answers for each of them how it went; a stop without a run tells nobody. So every
-- listener was told as often as there was a run to stop since it came. There is no run after a
-- stop, and another one can be started with any entries that have something to do.
theorem told_once_per_stop (context : Context) (source : Source) (relay : Relay)
    (hs : List Happening) :
    let fresh := Node.new context source relay
    let n := fresh.follow hs
    (n.scheduler.running = true → n.stop.1 = n.audience.map (fun m => m.1.outcome m.2) ∧
      n.stop.2.audience = n.audience.map fun m => (m.1, m.2 + 1)) ∧
    (n.scheduler.running = false → n.stop = ([], n)) ∧
    (∀ (l : Listener) (told : Nat), (l.outcome told).name = l.name ∧
      ((l.outcome told).error = none ↔ l.conduct.telling told = .done) ∧
      (∀ f, l.conduct.telling told = .fault f → (l.outcome told).error = some f.message) ∧
      ∀ p, l.conduct.telling told = .panic p → (l.outcome told).error = some p.message) ∧
    n.audience.map (·.1) = hs.filterMap Happening.newcomer? ∧
    (∀ before l later, hs = before ++ Happening.listen l :: later →
      n.audience[(before.filterMap Happening.newcomer?).length]? =
        some (l, (fresh.follow (before ++ [Happening.listen l])).tellings later)) ∧
    (n.scheduler.running = true ↔ ∃ before entries report later,
      hs = before ++ Happening.start entries :: later ∧
      ((fresh.follow before).start entries).1 = .ok report ∧
      ∀ h ∈ later, h.keepsRunning = true) ∧
    n.stop.2.scheduler.running = false ∧
    ∀ entries, (∃ report, (n.stop.2.start entries).1 = .ok report ∧
        (n.stop.2.start entries).2.scheduler.running = true) ↔
      (∃ e ∈ entries, e.tasks ≠ [] ∧ e.subscribers ≠ []) ∧
        ∀ e ∈ entries, e.tasks ≠ [] → e.subscribers ≠ [] → e.interval ≠ 0 := by
  intro fresh n
  have haudience : n.audience = fresh.newcomers hs := audience_follow fresh hs
  have hstopped : n.stop.2.scheduler.running = false := stop_running n.scheduler
  refine ⟨stop_of_running, stop_of_idle, Listener.outcome_spec, ?_, ?_, running_follow rfl hs,
    hstopped, fun entries => ?_⟩
  · rw [haudience, map_newcomers]
  · rintro before l later rfl
    rw [haudience, getElem?_newcomers]
  · have hok := start_ok_iff n.stop.2.scheduler entries n.stop.2.clock
    rw [← start_fst, hstopped, eq_self, true_and] at hok
    rw [← hok]
    constructor
    · rintro ⟨report, hout, -⟩
      exact ⟨report, hout⟩
    · rintro ⟨report, hout⟩
      exact ⟨report, hout, (start_ok (start_scheduler hout)).1⟩

-- One listener always fails, one always panics, and the last one comes after the first run. What
-- comes of a second stop in a row and of a start without entries is nothing.
theorem told_once_per_stop_again :
    let entry : Sentinel := ⟨[.cpu], [⟨"http://north", .http, none⟩], -1, 1, []⟩
    let failing : Listener := ⟨"failing", .fault (.listener "failing" "flush refused")⟩
    let panicking : Listener := ⟨"panicking", .panic "listener exploded"⟩
    let last : Listener := ⟨"last", .value ()⟩
    let hs : List Happening := [.listen failing, .start [entry], .listen panicking, .stop, .stop,
      .start [], .listen last, .start [entry]]
    let n := (Node.new ⟨"north", 0, false⟩ .idle (.new .standard)).follow hs
    n.scheduler.running = true ∧
      n.stop.1 = [⟨"failing", some "Shutdown listener 'failing' failed: flush refused"⟩,
        ⟨"panicking", some "listener exploded"⟩, ⟨"last", none⟩] ∧
      n.stop.2.audience.map (·.2) = [2, 2, 1] ∧ n.stop.2.stop.1 = [] := by
  intro entry failing panicking last hs n
  have hrunning : n.scheduler.running = true := by decide +kernel +zetaReduce
  obtain ⟨htold, -, -, -, -, -, hstopped, -⟩ :=
    told_once_per_stop ⟨"north", 0, false⟩ .idle (.new .standard) hs
  obtain ⟨houtcomes, hcounts⟩ := htold hrunning
  refine ⟨hrunning, ?_, ?_, ?_⟩
  · rw [houtcomes]
    decide +kernel +zetaReduce
  · rw [hcounts]
    decide +kernel +zetaReduce
  · rw [stop_of_idle hstopped]

end Node

end MetricRelay
