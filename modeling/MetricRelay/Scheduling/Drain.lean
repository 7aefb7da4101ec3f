import MetricRelay.Scheduling.Task

namespace MetricRelay

namespace Task

def isTick : Task → Bool
  | tick _ => true
  | _ => false

-- A bound on the tasks that run at the same instant because of a task that is no tick, itself
-- included.
def weight : Task → Nat
  | tick _ => 0
  | collect e => e.job.destinations.length + 3
  | close e _ _ => e.job.destinations.length + 2
  | deliver .. | reply .. => 1

-- The weight of some tasks together.
def load : List Task → Nat
  | [] => 0
  | t :: ts => t.weight + load ts

theorem load_append (ts us : List Task) : load (ts ++ us) = load ts + load us := by
  induction ts with
  | nil => simp [load]
  | cons t rest ih => simp only [List.cons_append, load, ih, Nat.add_assoc]

theorem load_deliver (destinations : List Subscriber) (x : Snapshot) :
    load (destinations.map (Task.deliver · x)) = destinations.length := by
  induction destinations with
  | nil => rfl
  | cons s rest ih =>
    simp only [load, weight, List.map_cons, List.length_cons] at ih ⊢
    omega

end Task

namespace Node

@[simp] theorem conclude_ready (n : Node) (e : Execution) (r : Result) :
    (n.conclude e r).ready = n.ready := rfl

@[simp] theorem conclude_clock (n : Node) (e : Execution) (r : Result) :
    (n.conclude e r).clock = n.clock := rfl

-- A task leaves alone what was ready already, and takes no time.
theorem closing_kept (n : Node) (e : Execution) (started : Nat) (p : Collection.Pending) :
    (n.closing e started p).2.ready = n.ready ∧ (n.closing e started p).2.clock = n.clock := by
  simp only [closing]
  split <;> simp

theorem collecting_kept (n : Node) (e : Execution) :
    (n.collecting e).2.ready = n.ready ∧ (n.collecting e).2.clock = n.clock := by
  simp only [collecting]
  split
  · simp
  · simp
  · split
    · exact closing_kept ..
    · split <;> simp [delayed]

theorem ticking_kept (n : Node) (epoch : Nat) :
    (n.ticking epoch).2.ready = n.ready ∧ (n.ticking epoch).2.clock = n.clock := by
  simp only [ticking]
  split <;> simp [delayed]

theorem delivering_kept (n : Node) (s : Subscriber) (x : Snapshot) :
    (n.delivering s x).ready = n.ready ∧ (n.delivering s x).clock = n.clock := by
  simp only [delivering]
  split <;> simp [delayed]

theorem perform_kept (n : Node) (t : Task) :
    (n.perform t).2.ready = n.ready ∧ (n.perform t).2.clock = n.clock := by
  cases t with
  | tick epoch => exact ticking_kept ..
  | collect e => exact collecting_kept ..
  | close e started p => exact closing_kept ..
  | deliver s x => exact delivering_kept ..
  | reply key status => exact ⟨rfl, rfl⟩

-- What becomes ready with the second half of a collection are deliveries, one per destination.
theorem closing_woken (n : Node) (e : Execution) (started : Nat) (p : Collection.Pending) :
    (n.closing e started p).1.countP Task.isTick = 0 ∧
      Task.load (n.closing e started p).1 ≤ e.job.destinations.length := by
  have hticks : ∀ (ds : List Subscriber) (x : Snapshot),
      (ds.map (Task.deliver · x)).countP Task.isTick = 0 := by
    intro ds x
    rw [List.countP_eq_zero]
    intro t ht
    obtain ⟨s, _, rfl⟩ := List.mem_map.1 ht
    simp [Task.isTick]
  simp only [closing]
  split
  · simp [Task.load]
  · split
    · exact ⟨hticks _ _, Nat.le_of_eq (Task.load_deliver _ _)⟩
    · simp [Task.load]

theorem collecting_woken (n : Node) (e : Execution) :
    (n.collecting e).1.countP Task.isTick = 0 ∧
      Task.load (n.collecting e).1 < (Task.collect e).weight := by
  simp only [collecting]
  split
  · simp [Task.load, Task.weight]
  · simp [Task.load, Task.weight]
  · rename_i p _
    split
    · have := closing_woken { n with source := (Collection.start n.context.node (.ofMillis n.clock)
        e.job.tasks e.job.ports n.source).2 } e n.clock p
      simp only [Task.weight]
      omega
    · split <;> simp [Task.load, Task.weight, Task.isTick]

-- No tick becomes ready with another task, and a task that is no tick weighs more than what
-- becomes ready with it.
theorem perform_woken (n : Node) (t : Task) :
    (n.perform t).1.countP Task.isTick = 0 ∧
      (t.isTick = true ∨ Task.load (n.perform t).1 < t.weight) := by
  cases t with
  | tick epoch =>
    refine ⟨?_, .inl rfl⟩
    simp only [perform, ticking]
    split
    · rw [List.countP_eq_zero]
      intro t ht
      obtain ⟨e, _, rfl⟩ := List.mem_map.1 ht
      simp [Task.isTick]
    · rfl
  | collect e => exact ⟨(collecting_woken n e).1, .inr (collecting_woken n e).2⟩
  | close e started p =>
    have := closing_woken n e started p
    refine ⟨this.1, .inr ?_⟩
    simp only [perform, Task.weight]
    omega
  | deliver s x => exact ⟨rfl, .inr (by simp [perform, Task.load, Task.weight])⟩
  | reply key status => exact ⟨rfl, .inr (by simp [perform, Task.load, Task.weight])⟩

theorem step_ready (n : Node) (t : Task) (others : List Task) :
    (n.step t others).ready = others ++ ({ n with ready := others }.perform t).1 := by
  simp only [step, (perform_kept { n with ready := others } t).1]

theorem step_clock (n : Node) (t : Task) (others : List Task) :
    (n.step t others).clock = n.clock := by
  simp only [step, (perform_kept { n with ready := others } t).2]

-- A task that runs leaves less to run at the same instant.
theorem step_lighter {n : Node} {t : Task} {others : List Task} (h : n.ready = t :: others) :
    Prod.Lex (· < ·) (· < ·)
      ((n.step t others).ready.countP Task.isTick, Task.load (n.step t others).ready)
      (n.ready.countP Task.isTick, Task.load n.ready) := by
  have hw := perform_woken { n with ready := others } t
  rw [step_ready, h]
  simp only [List.countP_append, List.countP_cons, Task.load_append, hw.1, Nat.add_zero]
  rcases hw.2 with ht | hl
  · exact Prod.Lex.left _ _ (by simp [ht])
  · by_cases ht : t.isTick = true
    · exact Prod.Lex.left _ _ (by simp [ht])
    · simp only [ht, Bool.false_eq_true, if_false, Nat.add_zero]
      refine Prod.Lex.right _ ?_
      simp only [Task.load] at hl ⊢
      omega

-- Runs tasks until none is ready.
def drain (n : Node) : Node :=
  match _h : n.ready with
  | [] => n
  | t :: others => (n.step t others).drain
termination_by (n.ready.countP Task.isTick, Task.load n.ready)
decreasing_by exact step_lighter _h

theorem drain_clock (n : Node) : n.drain.clock = n.clock := by
  fun_induction drain n with
  | case1 => rfl
  | case2 n t others _ ih => rw [ih, step_clock]

end Node

end MetricRelay
