import MetricRelay.Proofs.Isolation.Transport

namespace MetricRelay

namespace Node

-- What is noted about a node whenever a task is about to run, while what is ready runs, up to a
-- time, in a sleep, and while stimuli come.
def drainNotes {α : Type} (w : Transport) (note : Node → List α) (n : Node) : List α :=
  match _h : n.ready with
  | [] => []
  | t :: others => note n ++ ((n.facing w t).step t others).drainNotes w note
termination_by (n.ready.countP Task.isTick, Task.load n.ready)
decreasing_by
  have hlighter := step_lighter ((facing_ready w n t).trans _h)
  rwa [facing_ready] at hlighter

def notesUntil {α : Type} (w : Transport) (note : Node → List α) (till : Nat) (n : Node) : List α :=
  n.drainNotes w note ++
    match _h : (n.drainVia w).nextWake? till with
    | none => []
    | some d => ((n.drainVia w).wake d).notesUntil w note till
termination_by till - n.clock
decreasing_by
  have := nextWake?_bounds _h
  rw [drainVia_clock] at this
  simp only [wake]
  omega

def notes {α : Type} (w : Transport) (note : Node → List α) (n : Node) : Stimulus → List α
  | .sleep millis => if millis = 0 then [] else n.notesUntil w note (n.clock + millis)
  | _ => []

def notesThrough {α : Type} (w : Transport) (note : Node → List α) (n : Node) :
    List Stimulus → List α
  | [] => []
  | s :: ss => n.notes w note s ++ (n.undergo w s).notesThrough w note ss

variable {α : Type} {w : Transport} {note : Node → List α} {n : Node}

theorem drainNotes_of_ready (h : n.ready = []) : n.drainNotes w note = [] := by
  rw [drainNotes]
  split <;> simp_all

theorem drainNotes_of_cons {t : Task} {others : List Task} (h : n.ready = t :: others) :
    n.drainNotes w note = note n ++ ((n.facing w t).step t others).drainNotes w note := by
  rw [drainNotes]
  split <;> simp_all

theorem notesUntil_eq (w : Transport) (note : Node → List α) (till : Nat) (n : Node) :
    n.notesUntil w note till = n.drainNotes w note ++
      match (n.drainVia w).nextWake? till with
      | none => []
      | some d => ((n.drainVia w).wake d).notesUntil w note till := by
  rw [notesUntil]
  split <;> (rename_i h; simp only [h])

-- The executions that a task that is about to run dispatches.
def leaving (n : Node) : List (Nat × Execution) :=
  n.departed (.perform 0)

theorem drainDepartures_eq_notes (w : Transport) (n : Node) :
    n.drainDepartures w = n.drainNotes w leaving := by
  fun_induction drainDepartures w n with
  | case1 n hnone => rw [drainNotes_of_ready hnone]
  | case2 n t others hsome ih =>
      rw [drainNotes_of_cons hsome, ih]
      rfl

theorem departuresUntil_eq_notes (w : Transport) (till : Nat) (n : Node) :
    n.departuresUntil w till = n.notesUntil w leaving till := by
  fun_induction Node.runUntilVia w till n with
  | case1 n hnone =>
      rw [departuresUntil_eq, notesUntil_eq, hnone, drainDepartures_eq_notes]
  | case2 n d hwake ih =>
      rw [departuresUntil_eq, notesUntil_eq, hwake, drainDepartures_eq_notes]
      exact congrArg _ ih

theorem departures_eq_notes (w : Transport) (n : Node) (s : Stimulus) :
    n.departures w s = n.notes w leaving s := by
  cases s with
  | sleep millis => simp only [departures, sleepDepartures, notes, departuresUntil_eq_notes]
  | start | stop | drop | listen => rfl

theorem departuresThrough_eq_notes (w : Transport) (n : Node) (ss : List Stimulus) :
    n.departuresThrough w ss = n.notesThrough w leaving ss := by
  induction ss generalizing n with
  | nil => rfl
  | cons s rest ih => rw [departuresThrough, notesThrough, departures_eq_notes, ih]

-- The same with bounds, as for the runs themselves. These can be evaluated.
def drainNotesWithin? (w : Transport) (note : Node → List α) : Nat → Node → Option (List α)
  | 0, _ => none
  | tasks + 1, n =>
    match n.ready with
    | [] => some []
    | t :: others =>
      (drainNotesWithin? w note tasks ((n.facing w t).step t others)).map (note n ++ ·)

def notesWithin? (w : Transport) (note : Node → List α) (tasks till : Nat) :
    Nat → Node → Option (List α)
  | 0, _ => none
  | instants + 1, n =>
    match drainNotesWithin? w note tasks n, drainWithin? w tasks n with
    | some xs, some drained =>
      match drained.nextWake? till with
      | none => some xs
      | some d => (notesWithin? w note tasks till instants (drained.wake d)).map (xs ++ ·)
    | _, _ => none

theorem drainNotes_of_within {xs : List α} {tasks : Nat}
    (h : drainNotesWithin? w note tasks n = some xs) : n.drainNotes w note = xs := by
  induction tasks generalizing n xs with
  | zero => cases h
  | succ tasks ih =>
      unfold drainNotesWithin? at h
      split at h
      · rename_i hready
        cases h
        exact drainNotes_of_ready hready
      · rename_i t others hready
        obtain ⟨ys, hys, rfl⟩ := Option.map_eq_some_iff.mp h
        rw [drainNotes_of_cons hready, ih hys]

theorem notesUntil_of_within {xs : List α} {tasks till instants : Nat}
    (h : notesWithin? w note tasks till instants n = some xs) : n.notesUntil w note till = xs := by
  induction instants generalizing n xs with
  | zero => cases h
  | succ instants ih =>
      unfold notesWithin? at h
      split at h
      · rename_i ys drained hnotes hdrain
        rw [notesUntil_eq, drainVia_of_within hdrain, drainNotes_of_within hnotes]
        split at h
        · cases h
          exact List.append_nil _
        · obtain ⟨zs, hzs, rfl⟩ := Option.map_eq_some_iff.mp h
          rw [ih hzs]
      · cases h

-- What is ready can run before.
theorem runUntilVia_drainVia (w : Transport) (note : Node → List α) (till : Nat) (n : Node) :
    (n.drainVia w).runUntilVia w till = n.runUntilVia w till ∧
      n.drainNotes w note ++ (n.drainVia w).notesUntil w note till = n.notesUntil w note till := by
  have hready := drainVia_ready w n
  constructor
  · rw [runUntilVia_eq, runUntilVia_eq w till n, drainVia_of_ready hready, drainVia_clock]
  · rw [notesUntil_eq, notesUntil_eq w note till n, drainVia_of_ready hready,
      drainNotes_of_ready hready, List.nil_append]

-- While nothing is to run, time can pass in parts.
theorem runUntilVia_elapse (w : Transport) (note : Node → List α) {d till : Nat}
    (hready : n.ready = []) (hclock : n.clock ≤ d) (hle : d ≤ till)
    (hlater : n.SleepsTill (d + 1)) :
    ({ n with clock := d } : Node).runUntilVia w till = n.runUntilVia w till ∧
      ({ n with clock := d } : Node).notesUntil w note till = n.notesUntil w note till := by
  have hready' : ({ n with clock := d } : Node).ready = [] := hready
  have hnext : ({ n with clock := d } : Node).nextWake? till = n.nextWake? till := by
    unfold nextWake?
    refine congrArg List.min? (List.filter_congr fun due hdue => ?_)
    obtain ⟨sleeper, hsleeper, rfl⟩ := List.mem_map.mp hdue
    have hlate := hlater sleeper hsleeper
    have hiff : d < sleeper.1 ↔ n.clock < sleeper.1 := by omega
    simp only [hiff]
  rw [runUntilVia_eq, runUntilVia_eq w till n, notesUntil_eq, notesUntil_eq w note till n,
    drainVia_of_ready hready, drainVia_of_ready hready', drainNotes_of_ready hready,
    drainNotes_of_ready hready', hnext]
  cases n.nextWake? till with
  | none =>
      have hmax : max d till = max n.clock till := by omega
      exact ⟨by simp only [hmax], rfl⟩
  | some d' => exact ⟨rfl, rfl⟩

-- Up to the time at which the first wakes, time can pass as if somebody woke at any time.
theorem runUntilVia_wake (note : Node → List α) {d till : Nat} (hd : n.clock < d)
    (hle : d ≤ till) (hfirst : (n.drainVia w).SleepsTill d) :
    ((n.drainVia w).wake d).runUntilVia w till = n.runUntilVia w till ∧
      n.drainNotes w note ++ ((n.drainVia w).wake d).notesUntil w note till =
        n.notesUntil w note till := by
  obtain ⟨hrun, hnotes⟩ := runUntilVia_drainVia w note till n
  have hclock := drainVia_clock w n
  by_cases hnow : ∃ sleeper ∈ (n.drainVia w).asleep, sleeper.1 = d
  · have hnext : (n.drainVia w).nextWake? till = some d := by
      obtain ⟨sleeper, hsleeper, rfl⟩ := hnow
      refine List.min?_eq_some_iff.mpr ⟨?_, fun due hdue => ?_⟩
      · refine List.mem_filter.mpr ⟨List.mem_map_of_mem hsleeper, ?_⟩
        simp [hclock, hd, hle]
      · obtain ⟨hdue, hlater⟩ := List.mem_filter.mp hdue
        obtain ⟨other, hother, rfl⟩ := List.mem_map.mp hdue
        exact hfirst other hother (by simp at hlater; exact hlater.1)
    rw [runUntilVia_eq w till n, notesUntil_eq w note till n, hnext]
    exact ⟨rfl, rfl⟩
  · have hne : ∀ sleeper ∈ (n.drainVia w).asleep, sleeper.1 ≠ d := fun sleeper hsleeper heq =>
      hnow ⟨sleeper, hsleeper, heq⟩
    have hwake : (n.drainVia w).wake d = { n.drainVia w with clock := d } := by
      have hnone : ((n.drainVia w).asleep.filter fun e => e.1 == d) = [] := by
        refine List.filter_eq_nil_iff.mpr fun sleeper hsleeper => ?_
        simpa using hne sleeper hsleeper
      have hall : ((n.drainVia w).asleep.filter fun e => e.1 != d) = (n.drainVia w).asleep := by
        refine List.filter_eq_self.mpr fun sleeper hsleeper => ?_
        simpa using hne sleeper hsleeper
      simp only [wake, hnone, hall, List.map_nil, List.append_nil]
    have hlater : (n.drainVia w).SleepsTill (d + 1) := fun sleeper hsleeper hlate =>
      Nat.lt_of_le_of_ne (hfirst sleeper hsleeper hlate) (hne sleeper hsleeper).symm
    obtain ⟨hsame, hsame'⟩ := runUntilVia_elapse w note (drainVia_ready w n)
      (Nat.le_of_lt (hclock ▸ hd)) hle hlater
    rw [hwake, hsame, hsame']
    exact ⟨hrun, hnotes⟩

-- Time that passes can be cut anywhere.
theorem runUntilVia_runUntilVia (w : Transport) (note : Node → List α) {till later : Nat}
    (hclock : n.clock ≤ till) (hle : till ≤ later) :
    (n.runUntilVia w till).runUntilVia w later = n.runUntilVia w later ∧
      n.notesUntil w note till ++ (n.runUntilVia w till).notesUntil w note later =
        n.notesUntil w note later := by
  have hdrained := drainVia_clock w n
  fun_induction Node.runUntilVia w till n with
  | case1 n hnone =>
      have hmax : max n.clock till = till := by omega
      obtain ⟨hrun, hnotes⟩ := runUntilVia_elapse w note (drainVia_ready w n)
        (hdrained.symm ▸ hclock) hle (sleepsTill_of_none hnone)
      rw [hmax, hrun, hnotes, notesUntil_eq w note till n, hnone, List.append_nil]
      exact runUntilVia_drainVia w note later n
  | case2 n d hwake ih =>
      obtain ⟨hd, hdtill⟩ := nextWake?_bounds hwake
      rw [hdrained] at hd
      obtain ⟨hrun, hnotes⟩ := ih hdtill (drainVia_clock w _)
      obtain ⟨hrun', hnotes'⟩ :=
        runUntilVia_wake note hd (Nat.le_trans hdtill hle) (sleepsTill_of_some hwake)
      refine ⟨hrun.trans hrun', ?_⟩
      rw [← hnotes', ← hnotes, notesUntil_eq w note till n, hwake, List.append_assoc]

-- So what shows at the end of a sleep shows at any time in a longer one.
theorem sleepVia_sleepVia (w : Transport) (note : Node → List α) (n : Node) (millis more : Nat) :
    (n.sleepVia w millis).sleepVia w more = n.sleepVia w (millis + more) ∧
      n.notes w note (.sleep millis) ++ (n.sleepVia w millis).notes w note (.sleep more) =
        n.notes w note (.sleep (millis + more)) := by
  by_cases hmillis : millis = 0
  · subst hmillis
    simp [Node.sleepVia, notes]
  · by_cases hmore : more = 0
    · subst hmore
      simp [Node.sleepVia, notes]
    · have hclock : (n.runUntilVia w (n.clock + millis)).clock = n.clock + millis := by
        rw [runUntilVia_clock]
        omega
      obtain ⟨hrun, hnotes⟩ := runUntilVia_runUntilVia w note
        (Nat.le_add_right n.clock millis) (Nat.le_add_right (n.clock + millis) more)
      simp only [Node.sleepVia, notes, hmillis, hmore, Nat.add_eq_zero_iff, and_self,
        if_false, hclock]
      rw [hrun, hnotes, Nat.add_assoc]
      exact ⟨rfl, rfl⟩

-- Two nodes can be followed side by side while what is ready in them runs: what shows runs in
-- pairs, and what does not show in between, in either of them.
@[elab_as_elim]
theorem drainVia_pairs (w w' : Transport) (shows : Node → Task → Bool)
    {motive : Node → Node → Prop}
    (done : ∀ n m, n.ready = [] → m.ready = [] → motive n m)
    (left : ∀ n m t others, n.ready = t :: others → shows n t = false →
      motive ((n.facing w t).step t others) m → motive n m)
    (right : ∀ n m t others, m.ready = t :: others → shows m t = false →
      motive n ((m.facing w' t).step t others) → motive n m)
    (both : ∀ n m t others t' others', n.ready = t :: others → m.ready = t' :: others' →
      shows n t = true → shows m t' = true →
      motive ((n.facing w t).step t others) ((m.facing w' t').step t' others') → motive n m)
    (ahead : ∀ n m t others, n.ready = t :: others → shows n t = true → m.ready = [] → motive n m)
    (behind : ∀ n m t others, n.ready = [] → m.ready = t :: others → shows m t = true → motive n m)
    (n m : Node) : motive n m := by
  fun_induction Node.drainVia w n generalizing m with
  | case1 n hnone =>
      fun_induction Node.drainVia w' m with
      | case1 m hnone' => exact done n m hnone hnone'
      | case2 m t others hsome ih =>
          cases ht : shows m t with
          | false => exact right n m t others hsome ht ih
          | true => exact behind n m t others hnone hsome ht
  | case2 n t others hsome ih =>
      cases ht : shows n t with
      | false => exact left n m t others hsome ht (ih m)
      | true =>
          fun_induction Node.drainVia w' m with
          | case1 m hnone' => exact ahead n m t others hsome ht hnone'
          | case2 m t' others' hsome' ih' =>
              cases ht' : shows m t' with
              | false => exact right n m t' others' hsome' ht' ih'
              | true => exact both n m t others t' others' hsome hsome' ht ht' (ih _)

-- The first time at which somebody wakes in one of two nodes.
private theorem first_wake {m : Node} (hclock : n.clock = m.clock) (till : Nat) :
    (n.nextWake? till = none ∧ m.nextWake? till = none) ∨
    ∃ d, n.clock < d ∧ d ≤ till ∧ n.SleepsTill d ∧ m.SleepsTill d := by
  cases hnext : n.nextWake? till with
  | none =>
      cases hnext' : m.nextWake? till with
      | none => exact .inl ⟨rfl, rfl⟩
      | some d' =>
          obtain ⟨hd', hle'⟩ := nextWake?_bounds hnext'
          refine .inr ⟨d', by omega, hle', fun sleeper hsleeper hlater => ?_,
            sleepsTill_of_some hnext'⟩
          have := sleepsTill_of_none hnext sleeper hsleeper hlater
          omega
  | some d =>
      obtain ⟨hd, hle⟩ := nextWake?_bounds hnext
      have hfirst := sleepsTill_of_some hnext
      cases hnext' : m.nextWake? till with
      | none =>
          refine .inr ⟨d, hd, hle, hfirst, fun sleeper hsleeper hlater => ?_⟩
          have := sleepsTill_of_none hnext' sleeper hsleeper hlater
          omega
      | some d' =>
          obtain ⟨hd', -⟩ := nextWake?_bounds hnext'
          have hfirst' := sleepsTill_of_some hnext'
          exact .inr ⟨min d d', by omega, by omega,
            fun sleeper hsleeper hlater =>
              Nat.le_trans (Nat.min_le_left d d') (hfirst sleeper hsleeper hlater),
            fun sleeper hsleeper hlater =>
              Nat.le_trans (Nat.min_le_right d d') (hfirst' sleeper hsleeper hlater)⟩

-- Two nodes with the same time can be followed side by side: whenever somebody wakes in one of
-- them, time can pass as if somebody woke in the other one.
@[elab_as_elim]
theorem runUntilVia_pairs (w w' : Transport) (till : Nat) {motive : Node → Node → Prop}
    (rest : ∀ n m, n.clock = m.clock → (n.drainVia w).nextWake? till = none →
      (m.drainVia w').nextWake? till = none → motive n m)
    (wake : ∀ n m d, n.clock = m.clock → n.clock < d → d ≤ till →
      (n.drainVia w).SleepsTill d → (m.drainVia w').SleepsTill d →
      motive ((n.drainVia w).wake d) ((m.drainVia w').wake d) → motive n m)
    (n m : Node) (h : n.clock = m.clock) : motive n m := by
  induction hleft : till - n.clock using Nat.strong_induction_on generalizing n m with
  | h left ih =>
      have hclock := n.drainVia_clock w
      have hclock' : (n.drainVia w).clock = (m.drainVia w').clock := by
        rw [hclock, drainVia_clock, h]
      obtain ⟨hnone, hnone'⟩ | ⟨d, hd, hle, hfirst, hfirst'⟩ := first_wake hclock' till
      · exact rest n m h hnone hnone'
      · rw [hclock] at hd
        exact wake n m d h hd hle hfirst hfirst' (ih (till - d) (by omega) _ _ rfl rfl)

end Node

end MetricRelay
