import MetricRelay.Proofs.Collection.Footprint
import MetricRelay.Proofs.Delivery.Traffic
import MetricRelay.Proofs.Isolation.Transport

namespace MetricRelay

open Collection

-- Whether two jobs are the same one at different times.
structure Job.SamePlan (j i : Job) : Prop where
  id : j.id = i.id
  tasks : j.tasks = i.tasks
  destinations : j.destinations = i.destinations

namespace Scheduler

-- What happens to a job leaves its plan alone.
theorem visit_plan (epoch now : Nat) (j : Job) :
    (∀ e, (visit epoch now j).1 = some e → e.epoch = epoch ∧ e.job.SamePlan j) ∧
      ∀ j', (visit epoch now j).2 = some j' → j'.SamePlan j := by
  rw [visit_eq]
  split
  · refine ⟨?_, ?_⟩
    · rintro e ⟨⟩
      exact ⟨rfl, rfl, rfl, rfl⟩
    · intro j' hj'
      dsimp only at hj'
      split at hj'
      · cases hj'
      · cases hj'
        exact ⟨rfl, rfl, rfl⟩
  · refine ⟨nofun, ?_⟩
    rintro j' ⟨⟩
    exact ⟨rfl, rfl, rfl⟩

theorem apply_plan (r : Result) (advanceOnFailure : Bool) (now : Nat) (j : Job) :
    (r.apply advanceOnFailure now j).SamePlan j := by
  cases r with
  | failure => cases advanceOnFailure <;> exact ⟨rfl, rfl, rfl⟩
  | success | panic => exact ⟨rfl, rfl, rfl⟩

variable {s : Scheduler}

theorem exists_plan_of_mem_scan {now : Nat} {j' : Job} (h : j' ∈ (s.scan now).2.active) :
    ∃ j ∈ s.active, j'.SamePlan j := by
  rw [scan_active, List.mem_filterMap] at h
  obtain ⟨j, hj, hvisit⟩ := h
  exact ⟨j, hj, (visit_plan s.epoch now j).2 j' hvisit⟩

theorem exists_plan_of_dispatched {now : Nat} {e : Execution} (h : e ∈ (s.scan now).1) :
    e.epoch = s.epoch ∧ ∃ j ∈ s.active, e.job.SamePlan j := by
  rw [scan_dispatched, List.mem_filterMap] at h
  obtain ⟨j, hj, hvisit⟩ := h
  obtain ⟨hepoch, hplan⟩ := (visit_plan s.epoch now j).1 e hvisit
  exact ⟨hepoch, j, hj, hplan⟩

theorem exists_plan_of_mem_conclude {advanceOnFailure : Bool} {now : Nat} {e : Execution}
    {r : Result} {j' : Job} (h : j' ∈ (s.conclude advanceOnFailure now e r).active) :
    ∃ j ∈ s.active, j'.SamePlan j := by
  by_cases hcurrent : s.isCurrent e.epoch = true
  · obtain ⟨j, hj, rfl⟩ := mem_conclude_active hcurrent h
    refine ⟨j, hj, ?_⟩
    split
    · exact apply_plan ..
    · exact ⟨rfl, rfl, rfl⟩
  · simp only [conclude, hcurrent] at h
    exact ⟨j', h, rfl, rfl, rfl⟩

end Scheduler

-- What two runs may differ in: some readings, and some URLs.
structure Veil where
  readings : Reading → Bool
  urls : String → Bool

namespace Veil

-- Whether some kinds rest on a hidden reading.
def touches (v : Veil) (kinds : List Kind) : Bool :=
  kinds.any fun k => k.readings.any v.readings

-- Whether a job that rests on a hidden reading rests on no others and has no destination that shows.
def Confines (v : Veil) (kinds : List Kind) (destinations : List Subscriber) : Prop :=
  v.touches kinds = true →
    (∀ r, readsFor kinds r → v.readings r = true) ∧ ∀ s ∈ destinations, v.urls s.key = true

def showsJob (v : Veil) (j : Job) : Bool :=
  !v.touches j.tasks

-- The parts of two nodes that are the same but for what is hidden.
def SameSource (v : Veil) (s s' : Source) : Prop :=
  ∀ r, v.readings r = false → s.feed r = s'.feed r

def SameNetwork (v : Veil) (w w' : Network) : Prop :=
  ∀ url, v.urls url = false → w.reaction url = w'.reaction url

def SameTransport (v : Veil) (w w' : Transport) : Prop :=
  ∀ url, v.urls url = false → w url = w' url

structure SameRelay (v : Veil) (r r' : Relay) : Prop where
  exporters : r.exporters = r'.exporters
  network : v.SameNetwork r.network r'.network
  policy : r.breaker.policy = r'.breaker.policy
  circuits : ∀ key, v.urls key = false → r.breaker.circuit key = r'.breaker.circuit key
  journal : (r.journal.filter fun e => !v.urls e.2.url) =
    r'.journal.filter fun e => !v.urls e.2.url

structure SameScheduler (v : Veil) (s s' : Scheduler) : Prop where
  running : s.running = s'.running
  epoch : s.epoch = s'.epoch
  period : s.period = s'.period
  audience : s.audience = s'.audience
  active : s.active.filter v.showsJob = s'.active.filter v.showsJob

variable {v : Veil}

theorem showsJob_eq {j i : Job} (h : j.SamePlan i) : v.showsJob j = v.showsJob i := by
  rw [Veil.showsJob, Veil.showsJob, h.tasks]

-- A job that shows rests on nothing hidden.
theorem readings_of_showsJob {j : Job} (h : v.showsJob j = true) {r : Reading}
    (hr : readsFor j.tasks r) : v.readings r = false := by
  obtain ⟨k, hk, hr⟩ := hr
  simp only [showsJob, touches, Bool.not_eq_true', List.any_eq_false, Bool.not_eq_true] at h
  exact h k hk r hr

theorem readsFor_subset {kinds more : List Kind} (h : ∀ k ∈ kinds, k ∈ more) {r : Reading}
    (hr : readsFor kinds r) : readsFor more r := by
  obtain ⟨k, hk, hr⟩ := hr
  exact ⟨k, h k hk, hr⟩

namespace SameSource

variable {β : Type} {s s' s'' : Source} {S : Reading → Prop} {p : Source → β × Source}

theorem refl (s : Source) : v.SameSource s s :=
  fun _ _ => rfl

theorem symm (h : v.SameSource s s') : v.SameSource s' s :=
  fun r hr => (h r hr).symm

theorem trans (h : v.SameSource s s') (h' : v.SameSource s' s'') : v.SameSource s s'' :=
  fun r hr => (h r hr).trans (h' r hr)

-- What looks at nothing hidden goes the same way.
theorem seen (h : v.SameSource s s') (hp : Confined S p) (hS : ∀ r, S r → v.readings r = false) :
    (p s).1 = (p s').1 ∧ v.SameSource (p s).2 (p s').2 := by
  obtain ⟨hresult, hafter⟩ := hp.congr s s' fun r hr => h r (hS r hr)
  refine ⟨hresult, fun r hr => ?_⟩
  by_cases hread : S r
  · exact hafter r hread
  · rw [hp.frame s r hread, hp.frame s' r hread]
    exact h r hr

-- What looks at nothing but what is hidden changes nothing that shows.
theorem hidden (s : Source) (hp : Confined S p) (hS : ∀ r, S r → v.readings r = true) :
    v.SameSource (p s).2 s := by
  intro r hr
  refine hp.frame s r fun hread => ?_
  rw [hS r hread] at hr
  cases hr

end SameSource

namespace SameRelay

variable {r r' r'' : Relay} {key : String}

theorem refl (r : Relay) : v.SameRelay r r :=
  ⟨rfl, fun _ _ => rfl, rfl, fun _ _ => rfl, rfl⟩

theorem symm (h : v.SameRelay r r') : v.SameRelay r' r :=
  ⟨h.exporters.symm, fun url hurl => (h.network url hurl).symm, h.policy.symm,
    fun key hkey => (h.circuits key hkey).symm, h.journal.symm⟩

theorem trans (h : v.SameRelay r r') (h' : v.SameRelay r' r'') : v.SameRelay r r'' :=
  ⟨h.exporters.trans h'.exporters,
    fun url hurl => (h.network url hurl).trans (h'.network url hurl), h.policy.trans h'.policy,
    fun key hkey => (h.circuits key hkey).trans (h'.circuits key hkey),
    h.journal.trans h'.journal⟩

theorem check (h : v.SameRelay r r') (hkey : v.urls key = false) (now : Nat) :
    r.breaker.check key now = r'.breaker.check key now :=
  congrArg (Circuit.allows · now) (h.circuits key hkey)

theorem touch (r : Relay) (key : String) :
    v.SameRelay { r with breaker := r.breaker.touch key } r :=
  { refl r with circuits := fun other _ => Breaker.circuit_touch _ _ other }

theorem record (h : v.SameRelay r r') (key : String) (ok : Bool) (now : Nat) :
    v.SameRelay (r.record key ok now) (r'.record key ok now) := by
  refine { h with policy := h.policy, circuits := fun other hother => ?_ }
  simp only [Relay.record, Breaker.circuit_record]
  split
  · rename_i heq
    subst heq
    rw [h.circuits key hother, h.policy]
  · exact h.circuits other hother

theorem record_hidden (r : Relay) (hkey : v.urls key = true) (ok : Bool) (now : Nat) :
    v.SameRelay (r.record key ok now) r := by
  refine { refl r with policy := rfl, circuits := fun other hother => ?_ }
  have hne : key ≠ other := by
    rintro rfl
    rw [hkey] at hother
    cases hother
  simp only [Relay.record, Breaker.circuit_record, if_neg hne]

theorem post (h : v.SameRelay r r') (now : Nat) (request : Request) :
    v.SameRelay (r.post now request) (r'.post now request) := by
  refine { h with journal := ?_ }
  simp only [Relay.post, List.filter_cons, h.journal]

theorem post_hidden (r : Relay) (now : Nat) {request : Request}
    (hurl : v.urls request.url = true) : v.SameRelay (r.post now request) r := by
  refine { refl r with journal := ?_ }
  simp [Relay.post, hurl]

theorem meet (h : v.SameRelay r r') (key : String) (now : Nat) (reaction : Reaction) :
    (r.meet key now reaction).1 = (r'.meet key now reaction).1 ∧
      v.SameRelay (r.meet key now reaction).2 (r'.meet key now reaction).2 := by
  cases reaction with
  | status code => exact ⟨rfl, h.record ..⟩
  | refused => exact ⟨rfl, h.record ..⟩
  | delayed millis code =>
      simp only [Relay.meet]
      split
      · exact ⟨rfl, h.record ..⟩
      · exact ⟨rfl, h⟩
  | silent => exact ⟨rfl, h⟩

theorem meet_hidden (r : Relay) (hkey : v.urls key = true) (now : Nat) (reaction : Reaction) :
    v.SameRelay (r.meet key now reaction).2 r := by
  cases reaction with
  | status code => exact record_hidden r hkey ..
  | refused => exact record_hidden r hkey ..
  | delayed millis code =>
      simp only [Relay.meet]
      split
      · exact record_hidden r hkey ..
      · exact refl r
  | silent => exact refl r

-- A delivery that shows goes the same way.
theorem launch (h : v.SameRelay r r') (hes : r.exporters.Addressed) (now : Nat) {s : Subscriber}
    (hs : v.urls s.key = false) (x : Snapshot) :
    (r.launch now s x).1 = (r'.launch now s x).1 ∧
      v.SameRelay (r.launch now s x).2 (r'.launch now s x).2 := by
  have hasked : v.SameRelay { r with breaker := r.breaker.touch s.key }
      { r' with breaker := r'.breaker.touch s.key } :=
    (touch r s.key).trans (h.trans (touch r' s.key).symm)
  have hcheck := h.check hs now
  have hencoded : r'.exporters s.kind (.ofMillis now) s x = r.exporters s.kind (.ofMillis now) s x :=
    by rw [h.exporters]
  unfold Relay.launch
  cases hallowed : r.breaker.check s.key now with
  | false =>
      rw [hallowed] at hcheck
      simp only [← hcheck]
      exact ⟨rfl, hasked⟩
  | true =>
      rw [hallowed] at hcheck
      cases hvalue : r.exporters s.kind (.ofMillis now) s x with
      | fault | panic =>
          rw [hvalue] at hencoded
          simp only [← hcheck, hencoded]
          exact ⟨rfl, hasked.record ..⟩
      | value request =>
          have hurl : v.urls request.url = false := by
            rw [hes _ s x request hvalue]
            exact hs
          rw [hvalue] at hencoded
          simp only [← hcheck, hencoded, ← h.network request.url hurl]
          exact (hasked.post now request).meet ..

-- One that is hidden changes nothing that shows.
theorem launch_hidden (hes : r.exporters.Addressed) (now : Nat) {s : Subscriber}
    (hs : v.urls s.key = true) (x : Snapshot) : v.SameRelay (r.launch now s x).2 r := by
  have hasked := touch (v := v) r s.key
  unfold Relay.launch
  split
  · exact hasked
  · cases hvalue : r.exporters s.kind (.ofMillis now) s x with
    | fault | panic => exact (record_hidden _ hs ..).trans hasked
    | value request =>
        have hurl : v.urls request.url = true := by
          rw [hes _ s x request hvalue]
          exact hs
        exact (meet_hidden _ hs ..).trans ((post_hidden _ now hurl).trans hasked)

theorem requestsTo (h : v.SameRelay r r') (hkey : v.urls key = false) :
    r.requestsTo key = r'.requestsTo key := by
  have hshown : ∀ r : Relay, r.requestsTo key =
      ((r.journal.filter fun e => !v.urls e.2.url).filter fun e => e.2.url == key).reverse := by
    intro r
    rw [Relay.requestsTo, Relay.requests, List.filter_reverse, List.filter_filter]
    refine congrArg _ (List.filter_congr fun e _ => ?_)
    cases heq : e.2.url == key with
    | false => rfl
    | true => rw [beq_iff_eq.mp heq, hkey]; rfl
  rw [hshown, hshown, h.journal]

theorem facing (h : v.SameRelay r r') {w w' : Transport} (hw : v.SameTransport w w')
    (hkey : v.urls key = false) (now : Nat) :
    v.SameRelay (r.facing w now key) (r'.facing w' now key) := by
  unfold Relay.facing
  rw [← h.requestsTo hkey, ← h.network key hkey, ← hw key hkey]
  split
  · exact h
  · refine { h with network := fun other hother => ?_ }
    rw [Network.reaction_set, Network.reaction_set]
    split
    · rfl
    · exact h.network other hother

theorem facing_hidden (r : Relay) (hkey : v.urls key = true) (w : Transport) (now : Nat) :
    v.SameRelay (r.facing w now key) r := by
  unfold Relay.facing
  split
  · exact refl r
  · refine { refl r with network := fun other hother => ?_ }
    rw [Network.reaction_set, if_neg]
    rintro rfl
    rw [hkey] at hother
    cases hother

end SameRelay

private theorem filter_filterMap_of_eq {α β : Type} {f : α → Option β} {p : β → Bool} {q : α → Bool}
    (h : ∀ a b, f a = some b → p b = q a) (as : List α) :
    (as.filterMap f).filter p = (as.filter q).filterMap f := by
  induction as with
  | nil => rfl
  | cons a rest ih =>
      cases hf : f a with
      | none => cases hq : q a <;> simp [hf, hq, ih]
      | some b => cases hq : q a <;> simp [hf, hq, ih, h a b hf]

private theorem filter_map_of_eq {α : Type} {g : α → α} {p : α → Bool} {as : List α}
    (hsame : ∀ a ∈ as, p (g a) = p a) (hkept : ∀ a ∈ as, p a = true → g a = a) :
    (as.map g).filter p = as.filter p := by
  induction as with
  | nil => rfl
  | cons a rest ih =>
      have hrest := ih (fun b hb => hsame b (List.mem_cons_of_mem a hb))
        (fun b hb => hkept b (List.mem_cons_of_mem a hb))
      cases hp : p a with
      | true => simp [hkept a, hp, hrest]
      | false => simp [hsame a, hp, hrest]

namespace SameScheduler

variable {s s' s'' : Scheduler}

theorem refl (s : Scheduler) : v.SameScheduler s s :=
  ⟨rfl, rfl, rfl, rfl, rfl⟩

theorem symm (h : v.SameScheduler s s') : v.SameScheduler s' s :=
  ⟨h.running.symm, h.epoch.symm, h.period.symm, h.audience.symm, h.active.symm⟩

theorem trans (h : v.SameScheduler s s') (h' : v.SameScheduler s' s'') : v.SameScheduler s s'' :=
  ⟨h.running.trans h'.running, h.epoch.trans h'.epoch, h.period.trans h'.period,
    h.audience.trans h'.audience, h.active.trans h'.active⟩

theorem isCurrent (h : v.SameScheduler s s') (epoch : Nat) :
    s.isCurrent epoch = s'.isCurrent epoch := by
  simp only [Scheduler.isCurrent, h.running, h.epoch]

-- A tick visits the jobs that show in the same way.
theorem scan (h : v.SameScheduler s s') (now : Nat) :
    ((s.scan now).1.filter fun e => v.showsJob e.job) =
        ((s'.scan now).1.filter fun e => v.showsJob e.job) ∧
      v.SameScheduler (s.scan now).2 (s'.scan now).2 := by
  have hdispatched : ∀ s : Scheduler, ((s.scan now).1.filter fun e => v.showsJob e.job) =
      (s.active.filter v.showsJob).filterMap fun j => (Scheduler.visit s.epoch now j).1 := by
    intro s
    rw [Scheduler.scan_dispatched]
    refine filter_filterMap_of_eq (fun j e he => ?_) _
    exact showsJob_eq ((Scheduler.visit_plan s.epoch now j).1 e he).2
  have hactive : ∀ s : Scheduler, (s.scan now).2.active.filter v.showsJob =
      (s.active.filter v.showsJob).filterMap fun j => (Scheduler.visit s.epoch now j).2 := by
    intro s
    rw [Scheduler.scan_active]
    refine filter_filterMap_of_eq (fun j j' hj' => ?_) _
    exact showsJob_eq ((Scheduler.visit_plan s.epoch now j).2 j' hj')
  refine ⟨?_, h.running, h.epoch, h.period, h.audience, ?_⟩
  · rw [hdispatched, hdispatched, h.active, h.epoch]
  · rw [hactive, hactive, h.active, h.epoch]

theorem conclude (h : v.SameScheduler s s') (advanceOnFailure : Bool) (now : Nat) (e : Execution)
    (r : Result) :
    v.SameScheduler (s.conclude advanceOnFailure now e r)
      (s'.conclude advanceOnFailure now e r) := by
  unfold Scheduler.conclude
  rw [← h.isCurrent]
  split
  · refine { h with active := ?_ }
    have hcommutes : ∀ jobs : List Job,
        (Scheduler.update e.job.id (r.apply advanceOnFailure now) jobs).filter v.showsJob =
          Scheduler.update e.job.id (r.apply advanceOnFailure now) (jobs.filter v.showsJob) := by
      intro jobs
      unfold Scheduler.update
      rw [List.filter_map]
      refine congrArg _ (List.filter_congr fun j _ => ?_)
      simp only [Function.comp_apply]
      split
      · exact showsJob_eq (Scheduler.apply_plan ..)
      · rfl
    exact (hcommutes _).trans ((congrArg _ h.active).trans (hcommutes _).symm)
  · exact h

-- The end of an execution does not show if its job does not.
theorem conclude_hidden (advanceOnFailure : Bool) (now : Nat) {e : Execution}
    (he : s.isCurrent e.epoch = true → ∀ j ∈ s.active, j.id = e.job.id → v.showsJob j = false)
    (r : Result) : v.SameScheduler (s.conclude advanceOnFailure now e r) s := by
  unfold Scheduler.conclude
  split
  · rename_i hcurrent
    refine { refl (v := v) s with active := filter_map_of_eq (fun j _ => ?_) fun j hj hshows => ?_ }
    · split
      · exact showsJob_eq (Scheduler.apply_plan ..)
      · rfl
    · rw [if_neg]
      intro hid
      rw [he hcurrent j hj hid] at hshows
      cases hshows
  · exact refl s

theorem start (h : v.SameScheduler s s') (entries : List Sentinel) (now : Nat) :
    (s.start entries now).1 = (s'.start entries now).1 ∧
      v.SameScheduler (s.start entries now).2 (s'.start entries now).2 := by
  rw [Scheduler.start_eq, Scheduler.start_eq, ← h.running]
  split
  · exact ⟨rfl, h⟩
  · dsimp only
    split
    · exact ⟨rfl, h⟩
    · split
      · exact ⟨rfl, h⟩
      · exact ⟨rfl, rfl, congrArg (· + 1) h.epoch, rfl, h.audience, rfl⟩

theorem stop (h : v.SameScheduler s s') :
    s.stop.1 = s'.stop.1 ∧ v.SameScheduler s.stop.2 s'.stop.2 := by
  unfold Scheduler.stop
  rw [← h.running, ← h.audience]
  split
  · exact ⟨rfl, rfl, congrArg (· + 1) h.epoch, rfl, rfl, rfl⟩
  · exact ⟨rfl, h⟩

theorem drop (h : v.SameScheduler s s') : v.SameScheduler s.drop s'.drop :=
  { h with running := rfl }

theorem listen (h : v.SameScheduler s s') (l : Listener) :
    v.SameScheduler (s.listen l) (s'.listen l) :=
  { h with audience := congrArg (·.add l) h.audience }

end SameScheduler

end Veil

end MetricRelay
