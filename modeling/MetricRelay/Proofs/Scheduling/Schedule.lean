import MetricRelay.Proofs.Scheduling.Course
import MetricRelay.Proofs.Scheduling.SingleFlight

namespace MetricRelay

-- The times of ticks.
def OnGrid (since period t : Nat) : Prop :=
  ∃ k, t = since + period * k

namespace OnGrid

variable {since period t t' : Nat}

theorem add_mul (h : OnGrid since period t) (m : Nat) : OnGrid since period (t + period * m) := by
  obtain ⟨k, rfl⟩ := h
  exact ⟨k + m, by rw [Nat.mul_add]; omega⟩

theorem exists_eq_add (h : OnGrid since period t) (h' : OnGrid since period t') (hle : t ≤ t') :
    ∃ m, t' = t + period * m := by
  obtain ⟨k, rfl⟩ := h
  obtain ⟨k', rfl⟩ := h'
  rcases Nat.le_total k k' with hk | hk
  · exact ⟨k' - k, by rw [Nat.mul_sub]; have := Nat.mul_le_mul_left period hk; omega⟩
  · exact ⟨0, by have := Nat.mul_le_mul_left period hk; omega⟩

-- Ticks are a period apart.
theorem add_le (h : OnGrid since period t) (h' : OnGrid since period t') (hlt : t < t') :
    t + period ≤ t' := by
  obtain ⟨m, rfl⟩ := h.exists_eq_add h' (Nat.le_of_lt hlt)
  cases m with
  | zero => omega
  | succ m => rw [Nat.mul_succ]; omega

end OnGrid

theorem ceil_bounds {period : Nat} (h : 0 < period) (a : Nat) :
    a ≤ period * (a ⌈/⌉ period) ∧ period * (a ⌈/⌉ period) < a + period := by
  rw [Nat.ceilDiv_eq_add_pred_div]
  have hmod := Nat.div_add_mod (a + period - 1) period
  have hlt := Nat.mod_lt (a + period - 1) h
  omega

-- The first tick after a time that is not that of a tick.
theorem next_eq_of_not_dvd {since period t took next : Nat} (hperiod : 0 < period)
    (ht : OnGrid since period t) (hgrid : OnGrid since period next) (hle : t + took ≤ next)
    (hnext : next ≤ t + took + period) (hdvd : ¬period ∣ took) :
    next = t + period * (took / period + 1) := by
  obtain ⟨m, rfl⟩ := ht.exists_eq_add hgrid (by omega)
  have hmod := Nat.div_add_mod took period
  have hpos : took % period ≠ 0 := fun h => hdvd (Nat.dvd_of_mod_eq_zero h)
  have hlt := Nat.mod_lt took hperiod
  have hlower : took / period < m := by
    rw [← Nat.mul_lt_mul_left hperiod]
    omega
  have hupper : m < took / period + 2 := by
    rw [← Nat.mul_lt_mul_left hperiod, Nat.mul_add]
    omega
  have hm : m = took / period + 1 := by omega
  rw [hm]

def Task.isSecond : Task → Bool
  | close .. => true
  | _ => false

def Task.isTickOf (epoch : Nat) : Task → Bool
  | tick k => k == epoch
  | _ => false

theorem Task.eq_tick_of_isTickOf {epoch : Nat} {t : Task} (h : t.isTickOf epoch = true) :
    t = .tick epoch := by
  cases t with
  | tick k => rw [beq_iff_eq.mp h]
  | _ => cases h

-- What the times of the runs of a job depend on.
def Job.pace (j : Job) (context : Context) (period : Nat) : Pace where
  period := period
  interval := j.interval
  delay := context.delay
  rated := j.tasks.any Kind.isRate
  advanceOnFailure := context.advanceOnFailure

-- The runs of a job among timed executions.
def runsAt (id : Nat) (ds : List (Nat × Execution)) : List (Nat × Execution) :=
  ds.filter fun d => d.2.job.id == id

-- The ends of the runs of a job.
def endsOf (owner : Nat × Nat) (xs : List Finish) : List Finish :=
  xs.filter fun x => x.execution.owner == owner

-- Whether an idle job that is due from a time on will be dispatched by a tick at the time given, if
-- there is one, counting from the next tick on.
def DueAt (since period next : Nat) (due : Option Nat) (from_ : Nat) : Prop :=
  ∃ d, (∀ d', due = some d' → d = d') ∧ OnGrid since period d ∧ next ≤ d ∧ from_ ≤ d ∧
    (next < d → d < from_ + period)

theorem dueAt_advance {since period interval t took now next : Nat} (hperiod : 0 < period)
    (hinterval : period ≤ interval) (ht : OnGrid since period t) (hnow : now = t + took)
    (hnext : next ≤ now + period) :
    DueAt since period next (some (t + period * ((interval + took) ⌈/⌉ period)))
      (now + interval) := by
  obtain ⟨hle, hlt⟩ := ceil_bounds hperiod (interval + took)
  refine ⟨t + period * ((interval + took) ⌈/⌉ period), ?_, ht.add_mul _, by omega, by omega,
    by omega⟩
  rintro d' hd'
  exact Option.some.inj hd'

theorem dueAt_next {since period next due from_ : Nat} (hgrid : OnGrid since period next)
    (hdue : due = next) (hfrom : from_ ≤ next) : DueAt since period next (some due) from_ :=
  ⟨next, fun d' hd' => by rw [← hdue]; exact Option.some.inj hd', hgrid, Nat.le_refl _, hfrom,
    fun h => absurd h (Nat.lt_irrefl _)⟩

-- A tick dispatches an idle job that is due, at the time of its next run, and passes over others.
theorem DueAt.eq_next {since period next from_ : Nat} {due : Option Nat}
    (h : DueAt since period next due from_) (hgrid : OnGrid since period next)
    (hfrom : from_ ≤ next) : ∀ d, due = some d → next = d := by
  obtain ⟨d, hdue, hd, hle, -, hlt⟩ := h
  have heq : next = d := by
    by_contra hne
    have hlater : next < d := by omega
    have hperiod := hgrid.add_le hd hlater
    have hbefore := hlt hlater
    omega
  exact fun d' hd' => heq.trans (hdue d' hd')

theorem DueAt.later {since period next from_ : Nat} {due : Option Nat}
    (h : DueAt since period next due from_) (hgrid : OnGrid since period next)
    (hfrom : next < from_) : DueAt since period (next + period) due from_ := by
  obtain ⟨d, hdue, hd, -, hle, hlt⟩ := h
  have hlater : next < d := by omega
  exact ⟨d, hdue, hd, hgrid.add_le hd hlater, hle, fun _ => hlt hlater⟩

-- A job that was due already is dispatched by the first tick after the collection.
theorem dueAt_retry {p : Pace} {since t took next from_ : Nat} (hperiod : 0 < p.period)
    (ht : OnGrid since p.period t) (hgrid : OnGrid since p.period next)
    (hbefore : t + p.period ≤ next) (hle : t + took ≤ next) (hnext : next ≤ t + took + p.period)
    (hfrom : from_ ≤ next) :
    DueAt since p.period next ((p.retry? took).map (t + ·)) from_ := by
  unfold Pace.retry?
  split
  · have hfirst : t + p.period = next := by omega
    exact dueAt_next hgrid hfirst hfrom
  · split
    · exact ⟨next, nofun, hgrid, Nat.le_refl _, hfrom, fun h => absurd h (Nat.lt_irrefl _)⟩
    · rename_i hdvd
      exact dueAt_next hgrid (next_eq_of_not_dvd hperiod ht hgrid hle hnext hdvd).symm hfrom

-- What the end of a collection does to the time at which its job is due.
theorem apply_next (p : Pace) (now : Nat) (j : Job) (r : Result) :
    (r.apply p.advanceOnFailure now j).next =
      if p.postpones r then (Clock.later? now j.interval).getD j.next else j.next := by
  cases r with
  | success => rfl
  | failure =>
      rw [Result.apply, Pace.postpones]
      cases p.advanceOnFailure <;> rfl
  | panic => rfl

-- When a collection ends, by how it does.
theorem eq_add_took {context : Context} {period now t : Nat} {c : Job} {r : Result} {late : Bool}
    (hearly : late = false → now = t ∧ (r = .success → c.tasks.any Kind.isRate = false))
    (hlate : late = true → now = t + context.delay ∧ c.tasks.any Kind.isRate = true ∧ r ≠ .panic) :
    now = t + (c.pace context period).took r late := by
  cases late with
  | false =>
      obtain ⟨rfl, hrated⟩ := hearly rfl
      cases r with
      | success => simp [Pace.took, Pace.stay, Job.pace, hrated rfl]
      | failure => rfl
      | panic => rfl
  | true =>
      obtain ⟨rfl, hrated, hpanic⟩ := hlate rfl
      cases r with
      | success => simp [Pace.took, Pace.stay, Job.pace, hrated]
      | failure => rfl
      | panic => exact absurd rfl hpanic

-- What the end of a run does to the time at which its job is due, and to the tick that finds it so.
theorem dueAt_of_finish {context : Context} {period since now next t : Nat} {c j : Job}
    {r : Result} {late : Bool} (hperiod : 0 < period) (hinterval : period ≤ c.interval)
    (hsame : j.interval = c.interval) (ht : OnGrid since period t)
    (hgrid : OnGrid since period next) (hbefore : t + period ≤ next) (hnow : now ≤ next)
    (hnext : next ≤ now + period) (hdue : j.next ≤ t)
    (hearly : late = false → now = t ∧ (r = .success → c.tasks.any Kind.isRate = false))
    (hlate : late = true → now = t + context.delay ∧ c.tasks.any Kind.isRate = true ∧ r ≠ .panic) :
    DueAt since period next (((c.pace context period).gap? t r late).map (t + ·))
      (r.apply context.advanceOnFailure now j).next := by
  let p := c.pace context period
  have htook : now = t + p.took r late := eq_add_took hearly hlate
  have hretry : DueAt since period next ((p.retry? (p.took r late)).map (t + ·)) j.next :=
    dueAt_retry (p := p) hperiod ht hgrid hbefore (by omega) (htook ▸ hnext) (by omega)
  have happly : (r.apply context.advanceOnFailure now j).next =
      if p.postpones r then (Clock.later? now c.interval).getD j.next else j.next := by
    rw [← hsame]
    exact apply_next p now j r
  have hgap : p.gap? t r late =
      if p.postpones r ∧ now + c.interval ≤ Clock.last then
        some (period * ((c.interval + p.took r late) ⌈/⌉ period))
      else p.retry? (p.took r late) := by
    rw [htook]
    rfl
  change DueAt since period next ((p.gap? t r late).map (t + ·)) _
  rw [hgap, happly]
  cases p.postpones r with
  | false => simpa using hretry
  | true =>
      by_cases htold : now + c.interval ≤ Clock.last
      · rw [if_pos ⟨rfl, htold⟩, if_pos rfl, Clock.later?_of_le htold]
        exact dueAt_advance hperiod hinterval ht htook hnext
      · rw [if_neg (htold ·.2), if_pos rfl, Clock.later?_eq_none.mpr (Nat.lt_of_not_le htold)]
        exact hretry

end MetricRelay
