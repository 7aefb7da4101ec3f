import MetricRelay.Proofs.Scheduling.Happening
import Mathlib.Data.List.Induction
import Mathlib.Data.List.Nodup

namespace MetricRelay

namespace Job

-- The job as it was made at a time.
def fresh (j : Job) (now : Nat) : Job :=
  { j with next := now, runs := 0, inFlight := false }

def begun (j : Job) : Job :=
  { j with runs := j.runs + 1, inFlight := true }

-- Whether a job would be dispatched by a tick.
def isIdleDue (j : Job) (now : Nat) : Bool :=
  j.isDue now && !j.inFlight

theorem isFinal_mono (j : Job) {run run' : Nat} (h : run ≤ run') (hfinal : j.isFinal run = true) :
    j.isFinal run' = true := by
  unfold isFinal at hfinal ⊢
  split at hfinal
  · have := of_decide_eq_true hfinal
    exact decide_eq_true (by omega)
  · cases hfinal

end Job

namespace Scheduler

-- The runs of a job among some executions.
def runsOf (id : Nat) (log : List Execution) : List Execution :=
  log.filter fun e => e.job.id == id

-- Whether a job has runs left after some executions.
def unspent (log : List Execution) (j : Job) : Bool :=
  !j.isFinal (runsOf j.id log).length

-- A visit dispatches a job that is due and idle, and leaves others as they are.
theorem visit_eq (epoch now : Nat) (j : Job) :
    visit epoch now j = if j.isIdleDue now then
      (some ⟨epoch, j.begun⟩, if j.isFinal (j.runs + 1) then none else some j.begun)
    else (none, some j) := by
  unfold visit Job.isIdleDue Job.claim?
  cases j.isDue now with
  | false => rfl
  | true => cases j.inFlight <;> rfl

theorem scan_dispatched (s : Scheduler) (now : Nat) :
    (s.scan now).1 = s.active.filterMap fun j => (visit s.epoch now j).1 := by
  simp [scan, List.filterMap_map]

theorem scan_active (s : Scheduler) (now : Nat) :
    (s.scan now).2.active = s.active.filterMap fun j => (visit s.epoch now j).2 := by
  simp [scan, List.filterMap_map]

-- What a tick dispatches: the jobs that are due and idle, begun.
theorem scan_executions (s : Scheduler) (now : Nat) :
    (s.scan now).1 = (s.active.filter (·.isIdleDue now)).map fun j => ⟨s.epoch, j.begun⟩ := by
  rw [scan_dispatched, ← List.filterMap_eq_filter, List.map_filterMap]
  refine List.filterMap_congr fun j _ => ?_
  rw [visit_eq]
  cases hdue : j.isIdleDue now <;> simp [Option.guard, hdue]

theorem exists_of_mem_scan {s : Scheduler} {now : Nat} {e : Execution} (h : e ∈ (s.scan now).1) :
    ∃ j ∈ s.active, e = ⟨s.epoch, j.begun⟩ := by
  rw [scan_executions] at h
  obtain ⟨j, hj, rfl⟩ := List.mem_map.mp h
  exact ⟨j, (List.mem_filter.mp hj).1, rfl⟩

theorem runsOf_append (id : Nat) (log more : List Execution) :
    runsOf id (log ++ more) = runsOf id log ++ runsOf id more :=
  List.filter_append ..

theorem unspent_of_append {log more : List Execution} {j : Job}
    (h : unspent (log ++ more) j = true) : unspent log j = true := by
  have hle : (runsOf j.id log).length ≤ (runsOf j.id (log ++ more)).length := by
    rw [runsOf_append, List.length_append]
    omega
  simp only [unspent, Bool.not_eq_true'] at h ⊢
  cases hfinal : j.isFinal (runsOf j.id log).length with
  | false => rfl
  | true =>
      rw [j.isFinal_mono hle hfinal] at h
      cases h

private theorem runsOf_visits_of_notMem {epoch now id : Nat} {jobs : List Job}
    (h : id ∉ jobs.map Job.id) :
    runsOf id (jobs.filterMap fun j => (visit epoch now j).1) = [] := by
  rw [runsOf, List.filter_eq_nil_iff]
  intro e he
  obtain ⟨j, hj, hvisit⟩ := List.mem_filterMap.mp he
  rw [visit_eq] at hvisit
  split at hvisit
  · cases hvisit
    have : j.id ≠ id := fun hid => h (hid ▸ List.mem_map_of_mem hj)
    simpa [Job.begun] using this
  · cases hvisit

-- Where jobs have different numbers, visiting all of them runs each as visiting it does.
theorem runsOf_visits {epoch now : Nat} {jobs : List Job} (hjobs : (jobs.map Job.id).Nodup)
    {j : Job} (hj : j ∈ jobs) :
    runsOf j.id (jobs.filterMap fun j => (visit epoch now j).1) =
      (visit epoch now j).1.toList := by
  induction jobs with
  | nil => cases hj
  | cons first rest ih =>
      obtain ⟨hfirst, hrest⟩ := List.nodup_cons.mp hjobs
      have hsplit : (first :: rest).filterMap (fun j => (visit epoch now j).1) =
          (visit epoch now first).1.toList ++ rest.filterMap fun j => (visit epoch now j).1 := by
        cases h : (visit epoch now first).1 <;> simp [h]
      have hown : runsOf first.id (visit epoch now first).1.toList =
          (visit epoch now first).1.toList := by
        rw [visit_eq]
        split <;> simp [runsOf, Job.begun]
      rw [hsplit, runsOf_append]
      rcases List.mem_cons.mp hj with rfl | hj
      · rw [hown, runsOf_visits_of_notMem hfirst, List.append_nil]
      · have hne : first.id ≠ j.id := fun hid => hfirst (hid ▸ List.mem_map_of_mem hj)
        have hother : runsOf j.id (visit epoch now first).1.toList = [] := by
          rw [visit_eq]
          split <;> simp [runsOf, Job.begun, hne]
        rw [hother, ih hrest hj, List.nil_append]

-- How the jobs that a start created at a time stand after some executions: those with runs left
-- are at work, in their old order and with their runs counted, and each was run with the numbers
-- one, two and so on, up to its limit at most.
structure Accounted (created : List Job) (era since : Nat) (log : List Execution)
    (s : Scheduler) : Prop where
  running : s.running = true
  epoch : s.epoch = era
  active : s.active.map (Job.fresh · since) = created.filter (unspent log)
  counted : ∀ j ∈ s.active, j.runs = (runsOf j.id log).length
  numbered : ∀ c ∈ created,
    (runsOf c.id log).map (·.job.runs) = List.range' 1 (runsOf c.id log).length
  within : ∀ c ∈ created, ∀ most, c.limit = some most → (runsOf c.id log).length ≤ most
  dispatched : ∀ e ∈ log, e.epoch = era ∧ e.job.fresh since ∈ created

section

variable {created : List Job} {era since : Nat} {log : List Execution} {s : Scheduler}

theorem Accounted.sublist (h : Accounted created era since log s) :
    (s.active.map (Job.fresh · since)).Sublist created :=
  h.active ▸ List.filter_sublist

theorem Accounted.ids_sublist (h : Accounted created era since log s) :
    (s.active.map Job.id).Sublist (created.map Job.id) := by
  have := h.sublist.map Job.id
  rwa [List.map_map] at this

theorem Accounted.mem_active (h : Accounted created era since log s) {c : Job} :
    (∃ j ∈ s.active, j.fresh since = c) ↔ c ∈ created ∧ unspent log c = true := by
  rw [← List.mem_filter, ← h.active, List.mem_map]

theorem Accounted.unspent_of_mem (h : Accounted created era since log s) {j : Job}
    (hj : j ∈ s.active) : unspent log j = true :=
  (h.mem_active.mp ⟨j, hj, rfl⟩).2

theorem Accounted.mem_ids (h : Accounted created era since log s)
    (hids : (created.map Job.id).Nodup) {c : Job} (hc : c ∈ created) :
    c.id ∈ s.active.map Job.id ↔ unspent log c = true := by
  constructor
  · intro hmem
    obtain ⟨j, hj, hid⟩ := List.mem_map.mp hmem
    obtain ⟨hcreated, hunspent⟩ := h.mem_active.mp ⟨j, hj, rfl⟩
    have : j.fresh since = c := List.inj_on_of_nodup_map hids hcreated hc hid
    exact this ▸ hunspent
  · intro hunspent
    obtain ⟨j, hj, hfresh⟩ := h.mem_active.mpr ⟨hc, hunspent⟩
    exact List.mem_map.mpr ⟨j, hj, by rw [← hfresh]; rfl⟩

theorem Accounted.runsOf_scan (h : Accounted created era since log s)
    (hids : (created.map Job.id).Nodup) (now : Nat) {j : Job} (hj : j ∈ s.active) :
    runsOf j.id (log ++ (s.scan now).1) =
      runsOf j.id log ++ if j.isIdleDue now then [⟨era, j.begun⟩] else [] := by
  rw [runsOf_append, scan_dispatched, runsOf_visits (h.ids_sublist.nodup hids) hj, visit_eq,
    h.epoch]
  split <;> rfl

-- A tick runs a job that the start created once at most, with the next number, and only while it
-- has runs left.
theorem Accounted.runsOf_scan_cases (h : Accounted created era since log s)
    (hids : (created.map Job.id).Nodup) (now : Nat) {c : Job} (hc : c ∈ created) :
    runsOf c.id (log ++ (s.scan now).1) = runsOf c.id log ∨
      (unspent log c = true ∧ ∃ e, e.job.runs = (runsOf c.id log).length + 1 ∧
        runsOf c.id (log ++ (s.scan now).1) = runsOf c.id log ++ [e]) := by
  cases hspent : unspent log c with
  | false =>
      have hgone : c.id ∉ s.active.map Job.id := by
        rw [h.mem_ids hids hc, hspent]
        decide
      rw [runsOf_append, scan_dispatched, runsOf_visits_of_notMem hgone, List.append_nil]
      exact .inl rfl
  | true =>
      obtain ⟨j, hj, hfresh⟩ := h.mem_active.mpr ⟨hc, hspent⟩
      have hid : c.id = j.id := by rw [← hfresh]; rfl
      rw [hid, h.runsOf_scan hids now hj]
      split
      · exact .inr ⟨rfl, _, congrArg (· + 1) (h.counted j hj), rfl⟩
      · exact .inl (List.append_nil _)

theorem Accounted.unspent_scan (h : Accounted created era since log s)
    (hids : (created.map Job.id).Nodup) (now : Nat) {j : Job} (hj : j ∈ s.active) :
    unspent (log ++ (s.scan now).1) j =
      if j.isIdleDue now then !j.isFinal (j.runs + 1) else true := by
  rw [unspent, h.runsOf_scan hids now hj]
  split
  · rw [List.length_append, h.counted j hj]
    rfl
  · rw [List.append_nil]
    exact h.unspent_of_mem hj

theorem Accounted.active_scan (h : Accounted created era since log s)
    (hids : (created.map Job.id).Nodup) (now : Nat) :
    (s.scan now).2.active.map (Job.fresh · since) =
      created.filter (unspent (log ++ (s.scan now).1)) := by
  -- a job without runs left gets none back, so only the jobs at work need a look
  have hfilter : created.filter (unspent (log ++ (s.scan now).1)) =
      (s.active.map (Job.fresh · since)).filter (unspent (log ++ (s.scan now).1)) := by
    rw [h.active, List.filter_filter]
    apply List.filter_congr
    intro c _
    cases hc : unspent (log ++ (s.scan now).1) c with
    | false => rfl
    | true => simp [unspent_of_append hc]
  rw [hfilter, ← List.filterMap_eq_filter, List.filterMap_map, scan_active, List.map_filterMap]
  apply List.filterMap_congr
  intro j hj
  have hsame : unspent (log ++ (s.scan now).1) (j.fresh since) =
      unspent (log ++ (s.scan now).1) j := rfl
  simp only [Function.comp_apply, Option.guard, hsame, h.unspent_scan hids now hj, visit_eq]
  by_cases hdue : j.isIdleDue now = true
  · cases j.isFinal (j.runs + 1) <;> simp [hdue, Job.fresh, Job.begun]
  · simp [hdue]

theorem Accounted.scan (h : Accounted created era since log s)
    (hids : (created.map Job.id).Nodup) (now : Nat) :
    Accounted created era since (log ++ (s.scan now).1) (s.scan now).2 where
  running := h.running
  epoch := h.epoch
  active := h.active_scan hids now
  counted := by
    intro j' hj'
    rw [scan_active, List.mem_filterMap] at hj'
    obtain ⟨j, hj, hstays⟩ := hj'
    have hruns := h.runsOf_scan hids now hj
    rw [visit_eq] at hstays
    by_cases hdue : j.isIdleDue now = true
    · simp only [hdue, if_true] at hstays hruns
      split at hstays
      · cases hstays
      · cases hstays
        have hid : j.begun.id = j.id := rfl
        rw [hid, hruns, List.length_append, ← h.counted j hj]
        rfl
    · simp only [hdue, Bool.false_eq_true, if_false, Option.some.injEq] at hstays hruns
      rw [← hstays, hruns, List.append_nil]
      exact h.counted j hj
  numbered := by
    intro c hc
    rcases h.runsOf_scan_cases hids now hc with hsame | ⟨_, e, hnumber, hmore⟩
    · rw [hsame]
      exact h.numbered c hc
    · rw [hmore, List.map_append, h.numbered c hc, List.length_append, List.length_singleton,
        List.range'_1_concat, List.map_singleton, hnumber, Nat.add_comm]
  within := by
    intro c hc most hmost
    rcases h.runsOf_scan_cases hids now hc with hsame | ⟨hleft, e, _, hmore⟩
    · rw [hsame]
      exact h.within c hc most hmost
    · simp only [unspent, Job.isFinal, hmost, Bool.not_eq_true', decide_eq_false_iff_not] at hleft
      rw [hmore, List.length_append, List.length_singleton]
      omega
  dispatched := by
    intro e he
    rcases List.mem_append.mp he with he | he
    · exact h.dispatched e he
    · obtain ⟨j, hj, rfl⟩ := exists_of_mem_scan he
      exact ⟨h.epoch, (h.mem_active.mp ⟨j, hj, rfl⟩).1⟩

-- The end of a collection leaves alone what a job was made with and how many runs it had.
theorem fresh_apply (r : Result) (advanceOnFailure : Bool) (now : Nat) (j : Job) :
    (r.apply advanceOnFailure now j).fresh since = j.fresh since ∧
      (r.apply advanceOnFailure now j).runs = j.runs := by
  cases r with
  | failure => cases advanceOnFailure <;> exact ⟨rfl, rfl⟩
  | success | panic => exact ⟨rfl, rfl⟩

theorem Accounted.conclude (h : Accounted created era since log s) (advanceOnFailure : Bool)
    (now : Nat) (e : Execution) (r : Result) :
    Accounted created era since log (s.conclude advanceOnFailure now e r) := by
  unfold Scheduler.conclude
  split
  · have hsame : ∀ j : Job,
        (if j.id = e.job.id then r.apply advanceOnFailure now j else j).fresh since =
          j.fresh since ∧
        (if j.id = e.job.id then r.apply advanceOnFailure now j else j).runs = j.runs := by
      intro j
      split
      · exact fresh_apply r advanceOnFailure now j
      · exact ⟨rfl, rfl⟩
    refine { h with active := ?_, counted := ?_ }
    · rw [← h.active, update, List.map_map]
      exact List.map_congr_left fun j _ => (hsame j).1
    · intro j' hj'
      obtain ⟨j, hj, rfl⟩ := List.mem_map.mp hj'
      have hid := congrArg Job.id (hsame j).1
      rw [(hsame j).2, h.counted j hj]
      exact congrArg (fun id => (runsOf id log).length) hid.symm
  · exact h

theorem Accounted.step (h : Accounted created era since log s) (hids : (created.map Job.id).Nodup)
    {advanceOnFailure : Bool} {now : Nat} {es : List Execution} {s' : Scheduler}
    (hstep : s.Step advanceOnFailure now es s') : Accounted created era since (log ++ es) s' := by
  cases hstep with
  | rest => rwa [List.append_nil]
  | listen l => rw [List.append_nil]; exact { h with }
  | start hstart =>
      rw [start_eq, if_pos h.running] at hstart
      cases hstart
  | conclude e r => rw [List.append_nil]; exact h.conclude advanceOnFailure now e r
  | scan => exact h.scan hids now

theorem Accounted.follow {n : Node} (h : Accounted created era since log n.scheduler)
    (hids : (created.map Job.id).Nodup) {hs : List Happening}
    (hhs : ∀ h ∈ hs, h.keepsRunning = true) :
    Accounted created era since (log ++ n.history hs) (n.follow hs).scheduler := by
  induction hs using List.reverseRecOn with
  | nil => rw [Node.history, List.append_nil]; exact h
  | append_singleton hs happening ih =>
      have hbefore := ih fun h hmem => hhs h (by simp [hmem])
      rw [Node.follow_concat, Node.history_concat, ← List.append_assoc]
      exact hbefore.step hids (Node.step_after (hhs happening (by simp)))

end

theorem jobsFrom_eq (now id : Nat) (entries : List Sentinel) :
    jobsFrom now id entries = entries.mapIdx fun i e => Job.new (id + i) e now := by
  induction entries generalizing id with
  | nil => rfl
  | cons e rest ih =>
      rw [jobsFrom, ih, List.mapIdx_cons]
      simp [Nat.add_assoc, Nat.add_comm 1]

theorem map_id_jobsFrom (now id : Nat) (entries : List Sentinel) :
    (jobsFrom now id entries).map Job.id = List.range' id entries.length := by
  induction entries generalizing id with
  | nil => rfl
  | cons e rest ih => rw [jobsFrom, List.map_cons, ih]; rfl

theorem jobNew_mem {now id : Nat} {entries : List Sentinel} {entry : Sentinel}
    (h : entries[id]? = some entry) : Job.new id entry now ∈ jobsFrom now 0 entries := by
  refine List.mem_of_getElem? (i := id) ?_
  rw [jobsFrom_eq, List.getElem?_mapIdx, h, Nat.zero_add]
  rfl

-- A job of an entry with a count has as many runs left as the count allows; others have always.
theorem unspent_new (log : List Execution) (id : Nat) (entry : Sentinel) (now : Nat) :
    unspent log (.new id entry now) = true ↔
      (0 < entry.count → (runsOf id log).length < entry.count.toInt.toNat) := by
  have hle : entry.count ≤ 0 ↔ ¬0 < entry.count := Int64.not_lt.symm
  by_cases hcount : 0 < entry.count
  · have hbounded : entry.isUnbounded = false := by simp [Sentinel.isUnbounded, hle, hcount]
    simp [unspent, Job.isFinal, Job.new, hbounded, hcount]
  · have hunbounded : entry.isUnbounded = true := by simp [Sentinel.isUnbounded, hle, hcount]
    simp [unspent, Job.isFinal, Job.new, hunbounded, hcount]

theorem start_ok {s s' : Scheduler} {entries : List Sentinel} {now : Nat} {report : StartReport}
    (h : s.start entries now = (.ok report, s')) :
    s'.running = true ∧ s'.epoch = s.epoch + 1 ∧
      s'.active = jobsFrom now 0 (entries.filter Sentinel.isActive) := by
  rw [start_eq] at h
  split at h
  · cases h
  · dsimp only at h
    split at h
    · cases h
    · split at h
      · cases h
      · cases h
        exact ⟨rfl, rfl, rfl⟩

theorem accounted_start {s s' : Scheduler} {entries : List Sentinel} {now : Nat}
    {report : StartReport} (h : s.start entries now = (.ok report, s')) :
    Accounted (jobsFrom now 0 (entries.filter Sentinel.isActive)) (s.epoch + 1) now [] s' := by
  obtain ⟨hrunning, hepoch, hactive⟩ := start_ok h
  have hnew : ∀ c ∈ jobsFrom now 0 (entries.filter Sentinel.isActive),
      ∃ id entry, c = Job.new id entry now := by
    intro c hc
    rw [jobsFrom_eq] at hc
    obtain ⟨i, hi, rfl⟩ := List.mem_mapIdx.mp hc
    exact ⟨_, _, rfl⟩
  have hfresh : ∀ c ∈ jobsFrom now 0 (entries.filter Sentinel.isActive), c.fresh now = c := by
    intro c hc
    obtain ⟨id, entry, rfl⟩ := hnew c hc
    rfl
  have hunspent : ∀ c ∈ jobsFrom now 0 (entries.filter Sentinel.isActive),
      unspent [] c = true := by
    intro c hc
    obtain ⟨id, entry, rfl⟩ := hnew c hc
    rw [unspent_new]
    intro hcount
    rw [Int64.lt_iff_toInt_lt, Int64.toInt_zero] at hcount
    simp only [runsOf, List.filter_nil, List.length_nil]
    omega
  refine ⟨hrunning, hepoch, ?_, ?_, ?_, ?_, by simp⟩
  · rw [hactive, List.filter_eq_self.mpr hunspent]
    exact (List.map_congr_left hfresh).trans (List.map_id' _)
  · intro j hj
    rw [hactive] at hj
    obtain ⟨id, entry, rfl⟩ := hnew j hj
    rfl
  · intro c _
    rfl
  · intro c _ most _
    exact Nat.zero_le most

variable {created : List Job} {era since : Nat} {log : List Execution} {s : Scheduler}

theorem Accounted.fresh_of_mem_runsOf (h : Accounted created era since log s)
    (hids : (created.map Job.id).Nodup) {c : Job} (hc : c ∈ created) {e : Execution}
    (he : e ∈ runsOf c.id log) : e.job.fresh since = c := by
  obtain ⟨hlog, hid⟩ := List.mem_filter.mp he
  exact List.inj_on_of_nodup_map hids (h.dispatched e hlog).2 hc (by simpa [Job.fresh] using hid)

-- A tick dispatches each job that is due and idle, and of these the ones for which it is the last
-- run leave.
theorem scan_ids (s : Scheduler) (now : Nat) :
    (s.scan now).1.map (·.job.id) = (s.active.filter (·.isIdleDue now)).map Job.id ∧
    (s.scan now).2.active.map Job.id =
      (s.active.filter fun j => !(j.isIdleDue now && j.isFinal (j.runs + 1))).map Job.id := by
  refine ⟨?_, ?_⟩
  · rw [scan_executions, List.map_map]
    rfl
  · rw [scan_active, ← List.filterMap_eq_filter, List.map_filterMap, List.map_filterMap]
    refine List.filterMap_congr fun j _ => ?_
    rw [visit_eq]
    cases hdue : j.isIdleDue now <;> cases hfinal : j.isFinal (j.runs + 1) <;>
      simp [Option.guard, hdue, hfinal, Job.begun]

end Scheduler

namespace Node

open Scheduler

variable {n : Node} {entries : List Sentinel} {report : StartReport}

theorem start_scheduler (h : (n.start entries).1 = .ok report) :
    n.scheduler.start entries n.clock = (.ok report, (n.start entries).2.scheduler) := by
  rw [Node.start_eq] at h ⊢
  split at h
  · rename_i hstart
    cases h
    rw [hstart]
  · cases h

-- From a start on, however things happen as long as nobody stops the node, every job is run with
-- the numbers one, two and so on. It is at work exactly until it was run as often as its entry
-- allows, and always if that sets no limit; so the dispatch of its last run takes it away. The jobs
-- at work keep their order, a tick runs all of them that are due and idle, whichever of them leave,
-- and a snapshot goes to all destinations even if its job has left.
theorem runs_within_limit (hstart : (n.start entries).1 = .ok report) {hs : List Happening}
    (hhs : ∀ h ∈ hs, h.keepsRunning = true) :
    let jobs := entries.filter Sentinel.isActive
    let log := (n.start entries).2.history hs
    let now := (n.start entries).2.follow hs
    (∀ id entry, jobs[id]? = some entry →
      (runsOf id log).map (·.job.runs) = List.range' 1 (runsOf id log).length ∧
      (∀ e ∈ runsOf id log, e.job.tasks = entry.tasks ∧ e.job.ports = entry.listenedPorts ∧
        e.job.destinations = entry.subscribers) ∧
      (0 < entry.count → (runsOf id log).length ≤ entry.count.toInt.toNat) ∧
      (id ∈ now.scheduler.active.map Job.id ↔
        (0 < entry.count → (runsOf id log).length < entry.count.toInt.toNat))) ∧
    (∀ e ∈ log, e.job.id < jobs.length) ∧
    (now.scheduler.active.map (Job.fresh · n.clock)).Sublist (jobsFrom n.clock 0 jobs) ∧
    (now.scheduler.active.map Job.id).Pairwise (· < ·) ∧
    (∀ j ∈ now.scheduler.active, j.runs = (runsOf j.id log).length) ∧
    (∀ place epoch, now.ready[place]? = some (.tick epoch) → now.scheduler.isCurrent epoch = true →
      (now.dispatched (.perform place)).map (·.job.id) =
        (now.scheduler.active.filter (·.isIdleDue now.clock)).map Job.id ∧
      (now.after (.perform place)).scheduler.active.map Job.id =
        (now.scheduler.active.filter fun j =>
          !(j.isIdleDue now.clock && j.isFinal (j.runs + 1))).map Job.id) ∧
    ∀ place t e x, now.ready[place]? = some t → now.completion? t = some (e, x) → e ∈ log →
      now.woken (.perform place) = e.job.destinations.map (Task.deliver · x) := by
  intro jobs log now
  have hmap : (jobsFrom n.clock 0 jobs).map Job.id = List.range' 0 jobs.length :=
    map_id_jobsFrom n.clock 0 jobs
  have hids : ((jobsFrom n.clock 0 jobs).map Job.id).Nodup := hmap ▸ List.nodup_range'
  have hacc : Accounted (jobsFrom n.clock 0 jobs) (n.scheduler.epoch + 1) n.clock log
      now.scheduler :=
    (accounted_start (start_scheduler hstart)).follow hids hhs
  refine ⟨?_, ?_, hacc.sublist, ?_, hacc.counted, ?_, ?_⟩
  · intro id entry hentry
    have hc : Job.new id entry n.clock ∈ jobsFrom n.clock 0 jobs := jobNew_mem hentry
    refine ⟨hacc.numbered _ hc, ?_, ?_, ?_⟩
    · intro e he
      have hfresh := hacc.fresh_of_mem_runsOf hids hc he
      exact ⟨congrArg Job.tasks hfresh, congrArg Job.ports hfresh,
        congrArg Job.destinations hfresh⟩
    · intro hcount
      refine hacc.within _ hc _ ?_
      have hbounded : entry.isUnbounded = false := decide_eq_false (Int64.not_le.mpr hcount)
      simp [Job.new, hbounded]
    · rw [← unspent_new log id entry n.clock]
      exact hacc.mem_ids hids hc
  · intro e he
    have hmem := List.mem_map_of_mem (f := Job.id) (hacc.dispatched e he).2
    rw [hmap, List.mem_range'_1] at hmem
    simpa [Job.fresh] using hmem.2
  · have hrange : (List.range' 0 jobs.length).Pairwise (· < ·) := List.pairwise_lt_range'
    exact hrange.sublist (hmap ▸ hacc.ids_sublist)
  · intro place epoch hplace hcurrent
    obtain ⟨hdispatched, hafter⟩ := perform_tick hplace hcurrent
    rw [hdispatched, hafter]
    exact scan_ids now.scheduler now.clock
  · intro place t e x hplace hcompletion he
    have hcurrent : now.scheduler.isCurrent e.epoch = true := by
      simp [isCurrent, hacc.running, hacc.epoch, (hacc.dispatched e he).1]
    rw [woken_of_completion? hplace hcompletion, if_pos hcurrent]

-- A job of one run: the first tick dispatches it and takes it away, the second finds nothing.
theorem runs_within_limit_once :
    let entry : Sentinel := ⟨[.process], [⟨"http://north", .http, none⟩], 1, 5, []⟩
    let n : Node := .new ⟨"north", 1000, false⟩ .idle (.new (.make 5 60000))
    let hs : List Happening := [.perform 0, .elapse 5000, .wake 0, .perform 1]
    (n.start [entry]).1 = .ok ⟨1, 0, 5000⟩ ∧
      (runsOf 0 ((n.start [entry]).2.history hs)).map (·.job.runs) = [1] ∧
      0 ∉ ((n.start [entry]).2.follow hs).scheduler.active.map Job.id := by
  intro entry n hs
  have hstart : (n.start [entry]).1 = .ok ⟨1, 0, 5000⟩ := rfl
  have hhs : ∀ h ∈ hs, h.keepsRunning = true := by simp [hs, Happening.keepsRunning]
  have hlength : (runsOf 0 ((n.start [entry]).2.history hs)).length = 1 := by
    decide +kernel +zetaReduce
  obtain ⟨hnumbers, _, _, hactive⟩ := (runs_within_limit hstart hhs).1 0 entry rfl
  refine ⟨hstart, ?_, ?_⟩
  · rw [hnumbers, hlength]
    rfl
  · rw [hactive, hlength]
    decide

end Node

end MetricRelay
