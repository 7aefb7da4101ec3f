import MetricRelay.Scheduling.Timeline

namespace MetricRelay

namespace Scheduler

-- What a start comes to. A run that was taken in vain is given back, so that a start that is
-- refused leaves everything as it was.
theorem start_eq (s : Scheduler) (entries : List Sentinel) (now : Nat) :
    s.start entries now =
      if s.running then (.error (.scheduler "scheduler already running"), s)
      else
        let chosen := entries.filter Sentinel.isActive
        if chosen.isEmpty then (.error .noActiveJobs, s)
        else match chosen.find? fun e => e.interval == 0 with
          | some e => (.error (zeroInterval e.tasks), s)
          | none =>
            let jobs := jobsFrom now 0 chosen
            let period := shortest (jobs.map Job.interval)
            (.ok ⟨jobs.length, entries.length - chosen.length, period⟩,
              { s with running := true, epoch := s.epoch + 1, active := jobs,
                       period := some period }) := by
  cases hrunning : s.running with
  | true => simp [start, hrunning]
  | false =>
      have hback : { s with running := false } = s := by rw [← hrunning]
      rw [start, hrunning, if_neg Bool.false_ne_true, if_neg Bool.false_ne_true, launch]
      dsimp only
      cases hempty : (entries.filter Sentinel.isActive).isEmpty with
      | true =>
          rw [if_pos rfl, if_pos rfl]
          dsimp only
          rw [hback]
      | false =>
          rw [if_neg Bool.false_ne_true, if_neg Bool.false_ne_true]
          cases (entries.filter Sentinel.isActive).find? fun e => e.interval == 0 with
          | some e =>
              dsimp only
              rw [hback]
          | none => rfl

-- A start that is refused changes nothing.
theorem start_error {s s' : Scheduler} {entries : List Sentinel} {now : Nat} {f : Fault}
    (h : s.start entries now = (.error f, s')) : s' = s := by
  rw [start_eq] at h
  split at h
  · cases h
    rfl
  · dsimp only at h
    split at h
    · cases h
      rfl
    · split at h
      · cases h
        rfl
      · cases h

-- That nothing drives the clock is a reason to refuse as well.
theorem startOn_error {driven : Bool} {s s' : Scheduler} {entries : List Sentinel} {now : Nat}
    {f : Fault} (h : s.startOn driven entries now = (.error f, s')) : s' = s := by
  cases driven with
  | true => exact start_error h
  | false =>
      cases h
      rfl

theorem stop_running (s : Scheduler) : s.stop.2.running = false := by
  unfold stop
  split
  · rfl
  · rename_i hrunning
    exact Bool.eq_false_iff.mpr hrunning

end Scheduler

namespace Node

theorem start_of_error {n : Node} {entries : List Sentinel} {f : Fault}
    (h : (n.start entries).1 = .error f) : (n.start entries).2 = n := by
  rw [start_eq] at h ⊢
  split
  · rename_i hstart
    rw [hstart] at h
    cases h
  · rename_i hstart
    rw [Scheduler.start_error hstart]

end Node

end MetricRelay
