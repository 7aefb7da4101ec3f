import MetricRelay.Scheduling.Scheduler
import Mathlib.Algebra.Order.Floor.Div

namespace MetricRelay

-- How the collection of an execution ended, and when. It is late if that was with a second reading.
structure Finish where
  time : Nat
  execution : Execution
  result : Result
  late : Bool

-- What the times of the runs of a job depend on: the milliseconds between ticks, the interval of the
-- job, the delay between two readings of a rate, and whether the job has any.
structure Pace where
  period : Nat
  interval : Nat
  delay : Nat
  rated : Bool
  advanceOnFailure : Bool

namespace Pace

-- How long a collection takes that succeeds.
def stay (p : Pace) : Nat :=
  if p.rated then p.delay else 0

-- How long a collection takes that ends in some way.
def took (p : Pace) (r : Result) (late : Bool) : Nat :=
  match r with
  | .success => p.stay
  | .failure => if late then p.delay else 0
  | .panic => 0

-- Whether the job is to wait for an interval after a collection that ended in some way.
def postpones (p : Pace) : Result → Bool
  | .success => true
  | .failure => p.advanceOnFailure
  | .panic => false

-- The time from a run to the first tick after its collection. A collection that ends at the very
-- time of a later tick may come before this tick or after it.
def retry? (p : Pace) (took : Nat) : Option Nat :=
  if took = 0 then some p.period
  else if p.period ∣ took then none
  else some (p.period * (took / p.period + 1))

-- The time from one run of a job to the next, by when the first was dispatched and how its
-- collection ended. A job that is not to wait for an interval, or for one whose end the clock cannot
-- tell, is due again with the first tick after its collection.
def gap? (p : Pace) (t : Nat) (r : Result) (late : Bool) : Option Nat :=
  let took := p.took r late
  if p.postpones r ∧ t + took + p.interval ≤ Clock.last then
    some (p.period * ((p.interval + took) ⌈/⌉ p.period))
  else p.retry? took

end Pace

-- Where a job stands: it waits for its next run, which may be known to come at some time, or its
-- last run is at work.
inductive Phase where
  | idle (due : Option Nat)
  | busy (since : Nat) (e : Execution)

-- The runs of a job, with their times, and their ends, as they follow each other: the first run
-- comes at a given time, and every other one after a gap from the one before.
inductive Course (p : Pace) (first : Nat) : List (Nat × Execution) → List Finish → Phase → Prop where
  | fresh : Course p first [] [] (.idle (some first))
  | depart {ds : List (Nat × Execution)} {xs : List Finish} {due : Option Nat} {t : Nat}
      {e : Execution} (h : Course p first ds xs (.idle due)) (ht : ∀ d, due = some d → t = d) :
      Course p first (ds ++ [(t, e)]) xs (.busy t e)
  | finish {ds : List (Nat × Execution)} {xs : List Finish} {t : Nat} {x : Finish}
      (h : Course p first ds xs (.busy t x.execution)) :
      Course p first ds (xs ++ [x]) (.idle ((p.gap? t x.result x.late).map (t + ·)))

namespace Course

variable {p : Pace} {first : Nat} {ds : List (Nat × Execution)} {xs : List Finish} {phase : Phase}

-- Every run has its end but the one at work, which is the last.
theorem length_eq (h : Course p first ds xs phase) :
    match phase with
    | .idle _ => ds.length = xs.length
    | .busy t e => ∃ earlier, ds = earlier ++ [(t, e)] ∧ earlier.length = xs.length := by
  induction h with
  | fresh => rfl
  | depart h ht ih => exact ⟨_, rfl, ih⟩
  | finish h ih =>
      obtain ⟨earlier, rfl, hlength⟩ := ih
      simp [hlength]

-- What an idle job waits for: its first run, or the one after the run that ended last.
theorem idle_cases {due : Option Nat} (h : Course p first ds xs (.idle due)) :
    (ds = [] ∧ due = some first) ∨
    ∃ earlier t ends x, ds = earlier ++ [(t, x.execution)] ∧ xs = ends ++ [x] ∧
      earlier.length = ends.length ∧ due = (p.gap? t x.result x.late).map (t + ·) := by
  cases h with
  | fresh => exact .inl ⟨rfl, rfl⟩
  | @finish _ ends t x h =>
      obtain ⟨earlier, heq, hlength⟩ := h.length_eq
      exact .inr ⟨earlier, t, ends, x, heq, rfl, hlength, rfl⟩

theorem phase_of_nil (h : Course p first [] xs phase) : phase = .idle (some first) := by
  cases phase with
  | idle due =>
      obtain ⟨-, rfl⟩ | ⟨earlier, t, ends, x, heq, -⟩ := h.idle_cases
      · rfl
      · simp at heq
  | busy t e =>
      obtain ⟨earlier, heq, -⟩ := h.length_eq
      simp at heq

theorem first_eq (h : Course p first ds xs phase) {t : Nat} {e : Execution}
    (hget : ds[0]? = some (t, e)) : t = first := by
  induction h with
  | fresh => cases hget
  | @depart ds xs due t' e' h ht ih =>
      obtain ⟨rfl, rfl⟩ | ⟨earlier, t₀, ends, x, rfl, -⟩ := h.idle_cases
      · cases hget
        exact ht first rfl
      · refine ih ?_
        rwa [List.getElem?_append_left (by simp)] at hget
  | finish h ih => exact ih hget

-- Ends come in the order of the runs.
theorem execution_eq (h : Course p first ds xs phase) {i t : Nat} {e : Execution} {x : Finish}
    (hget : ds[i]? = some (t, e)) (hx : xs[i]? = some x) : x.execution = e := by
  induction h with
  | fresh => cases hget
  | @depart ds xs due t' e' h ht ih =>
      obtain ⟨hlt, -⟩ := List.getElem?_eq_some_iff.mp hx
      have hsame : ds.length = xs.length := h.length_eq
      rw [List.getElem?_append_left (by omega)] at hget
      exact ih hget hx
  | @finish ds xs t' x' h ih =>
      obtain ⟨hlt, -⟩ := List.getElem?_eq_some_iff.mp hx
      rw [List.length_append, List.length_singleton] at hlt
      by_cases hold : i < xs.length
      · rw [List.getElem?_append_left hold] at hx
        exact ih hget hx
      · obtain ⟨earlier, rfl, hlength⟩ := h.length_eq
        have hi : i = earlier.length := by omega
        rw [hi, List.getElem?_append_right (Nat.le_refl _), Nat.sub_self] at hget
        rw [hi, hlength, List.getElem?_append_right (Nat.le_refl _), Nat.sub_self] at hx
        cases hget
        cases hx
        rfl

-- The next run comes a gap after the one before has been dispatched.
theorem next_eq (h : Course p first ds xs phase) {i t t' : Nat} {e e' : Execution}
    (hget : ds[i]? = some (t, e)) (hnext : ds[i + 1]? = some (t', e')) :
    ∃ x, xs[i]? = some x ∧ ∀ g, p.gap? t x.result x.late = some g → t' = t + g := by
  induction h with
  | fresh => cases hget
  | @depart ds xs due t'' e'' h ht ih =>
      by_cases hlt : i + 1 < ds.length
      · rw [List.getElem?_append_left (by omega)] at hget
        rw [List.getElem?_append_left hlt] at hnext
        exact ih hget hnext
      · obtain ⟨hlast, -⟩ := List.getElem?_eq_some_iff.mp hnext
        rw [List.length_append, List.length_singleton] at hlast
        have hi : ds.length = i + 1 := by omega
        rw [List.getElem?_append_right (by omega), hi, Nat.sub_self] at hnext
        cases hnext
        rw [List.getElem?_append_left (by omega)] at hget
        -- the run before is over, so its end is the last there is
        obtain ⟨rfl, -⟩ | ⟨earlier, t₀, ends, x, rfl, rfl, hlength, rfl⟩ := h.idle_cases
        · cases hi
        · rw [List.length_append, List.length_singleton] at hi
          have hi' : earlier.length = i := by omega
          rw [List.getElem?_append_right (by omega), hi', Nat.sub_self] at hget
          cases hget
          refine ⟨x, ?_, fun g hg => ht _ (by simp [hg])⟩
          rw [List.getElem?_append_right (by omega), ← hlength, hi', Nat.sub_self]
          rfl
  | @finish ds xs t'' x h ih =>
      obtain ⟨x', hx', hrest⟩ := ih hget hnext
      obtain ⟨hlt, -⟩ := List.getElem?_eq_some_iff.mp hx'
      exact ⟨x', by rw [List.getElem?_append_left hlt, hx'], hrest⟩

-- A run without an end is at work.
theorem busy_of_getElem? (h : Course p first ds xs phase) {i t : Nat} {e : Execution}
    (hget : ds[i]? = some (t, e)) (hnone : xs[i]? = none) : phase = .busy t e := by
  obtain ⟨hlt, -⟩ := List.getElem?_eq_some_iff.mp hget
  have hle := List.getElem?_eq_none_iff.mp hnone
  have hlength := h.length_eq
  cases phase with
  | idle due =>
      have hsame : ds.length = xs.length := hlength
      omega
  | busy t' e' =>
      obtain ⟨earlier, rfl, hsame⟩ := hlength
      rw [List.length_append, List.length_singleton] at hlt
      have hi : earlier.length = i := by omega
      rw [List.getElem?_append_right (by omega), hi, Nat.sub_self] at hget
      cases hget
      rfl

-- After the end of the last run the job waits for the next.
theorem idle_of_getElem? (h : Course p first ds xs phase) {i t : Nat} {e : Execution} {x : Finish}
    (hget : ds[i]? = some (t, e)) (hx : xs[i]? = some x) (hlast : ds[i + 1]? = none) :
    phase = .idle ((p.gap? t x.result x.late).map (t + ·)) := by
  obtain ⟨hlt, -⟩ := List.getElem?_eq_some_iff.mp hx
  have hle := List.getElem?_eq_none_iff.mp hlast
  cases h with
  | fresh => cases hget
  | depart h ht =>
      have hsame : _ = xs.length := h.length_eq
      rw [List.length_append, List.length_singleton] at hle
      omega
  | @finish _ xs t' x' h =>
      obtain ⟨earlier, rfl, hlength⟩ := h.length_eq
      rw [List.length_append, List.length_singleton] at hle hlt
      have hi : earlier.length = i := by omega
      rw [List.getElem?_append_right (by omega), hi, Nat.sub_self] at hget
      rw [List.getElem?_append_right (by omega), ← hlength, hi, Nat.sub_self] at hx
      cases hget
      cases hx
      rfl

end Course

end MetricRelay
