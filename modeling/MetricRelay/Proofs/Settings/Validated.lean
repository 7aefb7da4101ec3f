import MetricRelay.CommandLine.Program
import MetricRelay.Proofs.Delivery.BreakerHistory
import MetricRelay.Proofs.Scheduling.Coherence

namespace MetricRelay

open Scheduler

-- What validation makes sure of in an entry, as far as the scheduler goes by it.
theorem Settings.entryProblem?_eq_none {entry : Nat} {e : Sentinel}
    (h : entryProblem? entry e = none) :
    e.interval ≠ 0 ∧ (e.count = -1 ∨ 0 < e.count) := by
  unfold entryProblem? at h
  split at h
  · cases h
  · rename_i hinterval
    split at h
    · cases h
    · rename_i hcount
      refine ⟨hinterval, ?_⟩
      rw [not_or, Int64.lt_iff_toInt_lt, ← Int64.toInt_inj] at hcount
      rw [Int64.lt_iff_toInt_lt, ← Int64.toInt_inj]
      have hzero : (0 : Int64).toInt = 0 := rfl
      have hminus : (-1 : Int64).toInt = -1 := rfl
      omega

theorem Settings.entriesProblem?_eq_none {first : Nat} {es : List Sentinel}
    (h : entriesProblem? first es = none) : ∀ e ∈ es, ∃ entry, entryProblem? entry e = none := by
  induction es generalizing first with
  | nil => exact fun _ he => absurd he List.not_mem_nil
  | cons e es ih =>
      rw [entriesProblem?, Option.or_eq_none_iff] at h
      exact List.forall_mem_cons.mpr ⟨⟨first, h.1⟩, ih h.2⟩

theorem Settings.problem?_eq_none {s : Settings} (h : s.validate = .ok ()) :
    s.breaker.failureThreshold ≠ 0 ∧
      ∀ e ∈ s.sentinel, ∃ entry, entryProblem? entry e = none := by
  have hnone : s.problem? = none := by
    unfold validate at h
    split at h
    · cases h
    · assumption
  unfold problem? at hnone
  split at hnone
  · cases hnone
  · split at hnone
    · cases hnone
    · rename_i hthreshold
      exact ⟨hthreshold, entriesProblem?_eq_none hnone⟩

theorem Settings.validate_ok {s : Settings} (h : s.validate = .ok ()) :
    s.breaker.failureThreshold ≠ 0 ∧
      ∀ e ∈ s.sentinel, e.interval ≠ 0 ∧ (e.count = -1 ∨ 0 < e.count) := by
  obtain ⟨hthreshold, hentries⟩ := problem?_eq_none h
  refine ⟨hthreshold, fun e he => ?_⟩
  obtain ⟨entry, hentry⟩ := hentries e he
  exact entryProblem?_eq_none hentry

-- A validated entry sets no limit by a count of minus one and no other way.
theorem limit_jobNew {e : Sentinel} (h : e.count = -1 ∨ 0 < e.count) (id now : Nat) :
    ((Job.new id e now).limit = none ↔ e.count = -1) ∧
      ∀ most, (Job.new id e now).limit = some most ↔ e.count ≠ -1 ∧ (most : Int) = e.count.toInt := by
  have hminus : (-1 : Int64).toInt = -1 := rfl
  have hzero : (0 : Int64).toInt = 0 := rfl
  rcases h with hcount | hcount
  · have hunbounded : e.isUnbounded = true := by
      rw [Sentinel.isUnbounded, hcount]
      decide
    simp [Job.new, hunbounded, hcount]
  · have hbounded : e.isUnbounded = false := decide_eq_false (Int64.not_le.mpr hcount)
    rw [Int64.lt_iff_toInt_lt, hzero] at hcount
    have hne : e.count ≠ -1 := by
      rw [ne_eq, ← Int64.toInt_inj]
      omega
    have hlimit : (Job.new id e now).limit = some e.count.toInt.toNat := by
      simp [Job.new, hbounded]
    refine ⟨by simp [hlimit, hne], fun most => ?_⟩
    rw [hlimit, Option.some.injEq]
    constructor
    · intro heq
      exact ⟨hne, by omega⟩
    · intro h
      have heq := h.2
      omega

namespace Breaker

-- A circuit counts as closed for as long as its key failed less often in a row than the policy
-- allows.
theorem state_after_ne_closed (p : BreakerPolicy) (calls : List (Nat × Call)) (key : String)
    (now : Nat) :
    ((new p).after calls).state key now ≠ .closed ↔ p.limit.toNat ≤ (streak key calls).length := by
  rw [state, circuit_after, after_policy]
  change Circuit.state p now _ ≠ _ ↔ _
  rw [Circuit.ofStreak_state]
  split
  · simp_all
  · split <;> simp_all

end Breaker

namespace Settings

-- A node with validated settings is started with their entries in vain only if none of them is
-- active, which is when the check of the settings on the command line fails too.
theorem start_of_validated {s : Settings} (hvalid : s.validate = .ok ()) (source : Source) :
    (s.active = [] ∧ ((s.node source).start s.sentinel).1 = .error .noActiveJobs) ∨
      s.active ≠ [] ∧ ∃ report, ((s.node source).start s.sentinel).1 = .ok report ∧
        report.jobs = s.active.length ∧
        report.dropped = s.sentinel.length - s.active.length := by
  obtain ⟨-, hentries⟩ := validate_ok hvalid
  have hstarted := (s.node source).scheduler.started s.sentinel (s.node source).clock
  rw [Node.start_fst]
  generalize (s.node source).scheduler.start s.sentinel (s.node source).clock = out at hstarted
  cases hstarted with
  | early hrunning => cases hrunning
  | idle _ hnone => exact .inl ⟨hnone, rfl⟩
  | restless _ he =>
      have hmem := (List.mem_filter.mp (List.mem_of_find?_eq_some he)).1
      exact absurd (by simpa using List.find?_some he) (hentries _ hmem).1
  | made _ hsome _ hjobs hdropped => exact .inr ⟨hsome, _, rfl, hjobs, hdropped⟩

-- Validation, the scheduler and the check on the command line agree about settings. Of validated
-- ones the scheduler refuses none but those without an active entry, which the check refuses for
-- the same reason. It makes a job for each active entry, in their order and with their contents,
-- and leaves the others aside, and its breaker opens a circuit with as many failures in a row as the
-- settings say.
theorem start_validated {s : Settings} (hvalid : s.validate = .ok ()) (source : Source)
    (files : Files) (path : String) :
    let out := (s.node source).start s.sentinel
    ((∃ report, out.1 = .ok report) ↔ s.active ≠ []) ∧
    (∀ f, out.1 = .error f → f = .noActiveJobs) ∧
    ((CommandLine.validate files path s).report.exit = 1 ↔ out.1 = .error .noActiveJobs) ∧
    (∀ report, out.1 = .ok report →
      report.jobs = s.active.length ∧ report.jobs + report.dropped = s.sentinel.length ∧
      out.2.scheduler.active.length = s.active.length ∧
      ∀ (place : Nat) (e : Sentinel), s.active[place]? = some e →
        ∃ j, out.2.scheduler.active[place]? = some j ∧
          j.tasks = e.tasks ∧ j.ports = e.listenedPorts ∧ j.destinations = e.subscribers ∧
          j.interval = 1000 * e.interval.toNat ∧ (j.limit = none ↔ e.count = -1) ∧
          ∀ most, j.limit = some most ↔ e.count ≠ -1 ∧ (most : Int) = e.count.toInt) ∧
    ∀ (calls : List (Nat × Breaker.Call)) (key : String) (now : Nat),
      (out.2.relay.breaker.after calls).state key now ≠ .closed ↔
        s.breaker.failureThreshold.toNat ≤ (Breaker.streak key calls).length := by
  intro out
  obtain ⟨hthreshold, hentries⟩ := validate_ok hvalid
  have hcases := start_of_validated hvalid source
  have hcheck : (CommandLine.validate files path s).failure =
      if s.active.isEmpty then some (.ofFault .noActiveJobs) else none := by
    simp [CommandLine.validate, hvalid]
  refine ⟨?_, ?_, ?_, fun report hreport => ?_, fun calls key now => ?_⟩
  · obtain ⟨hnone, herror⟩ | ⟨hsome, report, hok, -⟩ := hcases
    · simp [out, hnone, herror]
    · simp [out, hsome, hok]
  · intro f hf
    obtain ⟨-, herror⟩ | ⟨-, report, hok, -⟩ := hcases
    · exact Except.error.inj (hf.symm.trans herror)
    · cases hf.symm.trans hok
  · rw [CommandLine.Done.report, hcheck]
    obtain ⟨hnone, herror⟩ | ⟨hsome, report, hok, -⟩ := hcases
    · simp [out, hnone, herror]
    · simp [out, hsome, hok]
  · obtain ⟨-, herror⟩ | ⟨-, report', hok, hjobs, hdropped⟩ := hcases
    · cases hreport.symm.trans herror
    · obtain rfl : report = report' := Except.ok.inj (hreport.symm.trans hok)
      have hactive : out.2.scheduler.active =
          s.active.mapIdx fun id e => Job.new id e (s.node source).clock :=
        start_active (Node.start_scheduler hreport)
      have hle : s.active.length ≤ s.sentinel.length := List.length_filter_le ..
      refine ⟨hjobs, by omega, by rw [hactive, List.length_mapIdx], fun place e he => ?_⟩
      have hcount := (hentries e (List.mem_filter.mp (List.mem_of_getElem? he)).1).2
      refine ⟨Job.new place e (s.node source).clock, ?_, rfl, rfl, rfl, rfl,
        limit_jobNew hcount place _⟩
      rw [hactive, List.getElem?_mapIdx, he]
      rfl
  · have hbreaker : out.2.relay.breaker = .new s.breaker.policy := by
      change ((s.node source).start s.sentinel).2.relay.breaker = _
      obtain ⟨-, herror⟩ | ⟨-, report, hok, -⟩ := hcases
      · rw [Node.start_of_error herror]
        rfl
      · rw [Node.start_node hok]
        rfl
    have hpos : s.breaker.failureThreshold.toNat ≠ 0 := fun h =>
      hthreshold (UInt32.toNat_inj.mp h)
    rw [hbreaker, Breaker.state_after_ne_closed, BreakerSettings.policy, BreakerPolicy.make_limit]
    omega

-- Of three entries the second has nobody to send to, and the third is to be run three times.
theorem start_validated_mixed :
    let s : Settings := { Settings.default with
      breaker := ⟨2, 60⟩
      sentinel := [⟨[.cpu], [⟨"http://north", .http, none⟩], -1, 10, []⟩,
        ⟨[.disk], [], 5, 1, []⟩, ⟨[.port], [⟨"https://south", .prometheus, none⟩], 3, 5, [80]⟩] }
    let out := (s.node .idle).start s.sentinel
    let failures : List (Nat × Breaker.Call) := [(1, .result "http://north" false),
      (2, .result "http://south" false), (3, .result "http://north" false)]
    s.validate = .ok () ∧ out.1 = .ok ⟨2, 1, 5000⟩ ∧
      (CommandLine.validate ⟨[], []⟩ "vigil.toml" s).report.exit ≠ 1 ∧
      (∃ j, out.2.scheduler.active[1]? = some j ∧ j.tasks = [.port] ∧ j.ports = [80] ∧
        j.limit = some 3) ∧
      (out.2.relay.breaker.after failures).state "http://north" 4 ≠ .closed := by
  intro s out failures
  have hvalid : s.validate = .ok () := by decide +kernel +zetaReduce
  have hreport : out.1 = .ok ⟨2, 1, 5000⟩ := by decide +kernel +zetaReduce
  obtain ⟨-, -, hexit, hjobs, hbreaker⟩ := start_validated hvalid .idle ⟨[], []⟩ "vigil.toml"
  obtain ⟨-, -, -, hplaces⟩ := hjobs _ hreport
  obtain ⟨j, hj, htasks, hports, -, -, -, hlimit⟩ := hplaces 1 _ rfl
  refine ⟨hvalid, hreport, ?_, ⟨j, hj, htasks, hports, (hlimit 3).mpr (by decide)⟩,
    (hbreaker failures "http://north" 4).mpr (by decide)⟩
  rw [ne_eq, hexit]
  intro herror
  cases hreport.symm.trans herror

end Settings

end MetricRelay
