import MetricRelay.Proofs.Isolation.Sound

namespace MetricRelay

open Collection

namespace Veil

-- Whether a task is none of a hidden job and no delivery to a hidden URL.
def shows (v : Veil) : Task → Bool
  | .tick _ => true
  | .collect e | .close e _ _ => v.showsJob e.job
  | .deliver s _ => !v.urls s.key
  | .reply key _ => !v.urls key

-- Whether two nodes are the same but for what is hidden.
structure Same (v : Veil) (n m : Node) : Prop where
  context : n.context = m.context
  clock : n.clock = m.clock
  ready : n.ready.filter v.shows = m.ready.filter v.shows
  asleep : (n.asleep.filter fun e => v.shows e.2) = m.asleep.filter fun e => v.shows e.2
  scheduler : v.SameScheduler n.scheduler m.scheduler
  source : v.SameSource n.source m.source
  relay : v.SameRelay n.relay m.relay

-- The same for what running a task leads to.
structure SameTurn (v : Veil) (a b : List Task × Node) : Prop where
  woken : a.1.filter v.shows = b.1.filter v.shows
  node : v.Same a.2 b.2

variable {v : Veil} {n m k : Node}

namespace Same

theorem refl (n : Node) : v.Same n n :=
  ⟨rfl, rfl, rfl, rfl, .refl _, .refl _, .refl _⟩

theorem symm (h : v.Same n m) : v.Same m n :=
  ⟨h.context.symm, h.clock.symm, h.ready.symm, h.asleep.symm, h.scheduler.symm, h.source.symm,
    h.relay.symm⟩

theorem trans (h : v.Same n m) (h' : v.Same m k) : v.Same n k :=
  ⟨h.context.trans h'.context, h.clock.trans h'.clock, h.ready.trans h'.ready,
    h.asleep.trans h'.asleep, h.scheduler.trans h'.scheduler, h.source.trans h'.source,
    h.relay.trans h'.relay⟩

theorem delayed (h : v.Same n m) (millis : Nat) (t : Task) :
    v.Same (n.delayed millis t) (m.delayed millis t) := by
  refine { h with asleep := ?_ }
  simp only [Node.delayed, List.filter_append, h.asleep, h.clock]

theorem delayed_hidden (n : Node) (millis : Nat) {t : Task} (ht : v.shows t = false) :
    v.Same (n.delayed millis t) n := by
  refine { refl n with asleep := ?_ }
  simp [Node.delayed, ht]

theorem supply (h : v.Same n m) {source source' : Source} (hs : v.SameSource source source') :
    v.Same { n with source := source } { m with source := source' } :=
  ⟨h.context, h.clock, h.ready, h.asleep, h.scheduler, hs, h.relay⟩

theorem supply_hidden {source : Source} (hs : v.SameSource source n.source) :
    v.Same { n with source := source } n :=
  (refl n).supply hs

theorem conclude (h : v.Same n m) (e : Execution) (r : Result) :
    v.Same (n.conclude e r) (m.conclude e r) := by
  refine { h with scheduler := ?_ }
  simp only [Node.conclude, ← h.context, ← h.clock]
  exact h.scheduler.conclude ..

-- The end of a hidden execution does not show, whatever it read.
theorem conclude_hidden {e : Execution} (he : v.showsJob e.job = false)
    (hfits : v.Fits n.scheduler e) {source : Source} (hs : v.SameSource source n.source)
    (r : Result) : v.Same ({ n with source := source }.conclude e r) n := by
  refine { supply_hidden hs with scheduler := .conclude_hidden _ _ (fun hcurrent j hj hid => ?_) r }
  rw [← he, showsJob, showsJob, hfits.job hcurrent j hj hid]

end Same

private theorem filter_deliver {ds : List Subscriber} (h : ∀ d ∈ ds, v.urls d.key = true)
    (x : Snapshot) : (ds.map (Task.deliver · x)).filter v.shows = [] := by
  refine List.filter_eq_nil_iff.mpr fun t ht => ?_
  obtain ⟨d, hd, rfl⟩ := List.mem_map.mp ht
  simp [shows, h d hd]

-- What is read for rates that wait for their second reading is read for those asked for.
private theorem readsFor_firsts {e : Execution} {p : Pending}
    (hfirsts : ∀ f ∈ p.firsts, f.kind ∈ e.job.tasks) {r : Reading}
    (hr : readsFor (p.firsts.map First.kind) r) : readsFor e.job.tasks r := by
  refine readsFor_subset (fun k hk => ?_) hr
  obtain ⟨f, hf, rfl⟩ := List.mem_map.mp hk
  exact hfirsts f hf

private theorem firsts_of_isEmpty {e : Execution} {p : Pending} (h : p.firsts.isEmpty = true) :
    ∀ f ∈ p.firsts, f.kind ∈ e.job.tasks := by
  rw [List.isEmpty_iff.mp h]
  exact fun f hf => absurd hf List.not_mem_nil

-- The end of a hidden collection does not show.
theorem closing_hidden {e : Execution} (he : v.showsJob e.job = false)
    (hfits : v.Fits n.scheduler e) (started : Nat) {p : Pending}
    (hfirsts : ∀ f ∈ p.firsts, f.kind ∈ e.job.tasks) :
    v.SameTurn (n.closing e started p) ([], n) := by
  obtain ⟨hreadings, hurls⟩ := hfits.hidden he
  have hsource := SameSource.hidden n.source (confined_finish (.ofMillis (n.clock - started)) p)
    fun r hr => hreadings r (readsFor_firsts hfirsts hr)
  unfold Node.closing
  generalize finish (.ofMillis (n.clock - started)) p n.source = out at hsource
  obtain ⟨r, source⟩ := out
  cases r with
  | error f => exact ⟨rfl, Same.conclude_hidden he hfits hsource .failure⟩
  | ok x =>
      refine ⟨?_, Same.conclude_hidden he hfits hsource .success⟩
      dsimp only
      split
      · exact filter_deliver hurls x
      · rfl

theorem closing_seen (h : v.Same n m) {e : Execution} (he : v.showsJob e.job = true)
    (started : Nat) {p : Pending} (hfirsts : ∀ f ∈ p.firsts, f.kind ∈ e.job.tasks) :
    v.SameTurn (n.closing e started p) (m.closing e started p) := by
  obtain ⟨context, clock, ready, asleep, scheduler, source₁, relay⟩ := m
  obtain rfl : n.clock = clock := h.clock
  obtain ⟨hresult, hsource⟩ := h.source.seen (confined_finish (.ofMillis (n.clock - started)) p)
    fun r hr => readings_of_showsJob he (readsFor_firsts hfirsts hr)
  unfold Node.closing
  dsimp only at hresult hsource ⊢
  generalize finish (.ofMillis (n.clock - started)) p n.source = out at hresult hsource
  generalize finish (.ofMillis (n.clock - started)) p source₁ = out' at hresult hsource
  obtain ⟨r, source⟩ := out
  obtain ⟨r', source'⟩ := out'
  cases hresult
  have hnow := h.supply hsource
  cases r with
  | error f => exact ⟨rfl, hnow.conclude e .failure⟩
  | ok x =>
      refine ⟨?_, hnow.conclude e .success⟩
      have hcurrent := hnow.scheduler.isCurrent e.epoch
      dsimp only at hcurrent ⊢
      rw [hcurrent]

-- Neither does its beginning.
theorem collecting_hidden {e : Execution} (he : v.showsJob e.job = false)
    (hfits : v.Fits n.scheduler e) : v.SameTurn (n.collecting e) ([], n) := by
  have hsource := SameSource.hidden n.source
    (confined_start n.context.node (.ofMillis n.clock) e.job.tasks e.job.ports) (hfits.hidden he).1
  have hclose : ∀ p, v.shows (.close e n.clock p) = false := fun _ => he
  unfold Node.collecting
  generalize start n.context.node (.ofMillis n.clock) e.job.tasks e.job.ports n.source = out
    at hsource
  obtain ⟨r, source⟩ := out
  cases r with
  | fault f => exact ⟨rfl, Same.conclude_hidden he hfits hsource .failure⟩
  | panic text => exact ⟨rfl, Same.conclude_hidden he hfits hsource .panic⟩
  | value p =>
      have hnow := Same.supply_hidden hsource
      dsimp only
      split
      · rename_i hempty
        obtain ⟨hwoken, hnode⟩ := closing_hidden (n := { n with source := source }) he hfits n.clock
          (firsts_of_isEmpty hempty)
        exact ⟨hwoken, hnode.trans hnow⟩
      · split
        · exact ⟨by simp [hclose], hnow⟩
        · exact ⟨rfl, (Same.delayed_hidden _ _ (hclose p)).trans hnow⟩

theorem collecting_seen (h : v.Same n m) {e : Execution} (he : v.showsJob e.job = true) :
    v.SameTurn (n.collecting e) (m.collecting e) := by
  obtain ⟨context, clock, ready, asleep, scheduler, source₁, relay⟩ := m
  obtain rfl : n.context = context := h.context
  obtain rfl : n.clock = clock := h.clock
  obtain ⟨hresult, hsource⟩ := h.source.seen
    (confined_start n.context.node (.ofMillis n.clock) e.job.tasks e.job.ports)
    fun r hr => readings_of_showsJob he hr
  unfold Node.collecting
  generalize start n.context.node (.ofMillis n.clock) e.job.tasks e.job.ports n.source = out
    at hresult hsource
  generalize start n.context.node (.ofMillis n.clock) e.job.tasks e.job.ports source₁ = out'
    at hresult hsource
  obtain ⟨r, source⟩ := out
  obtain ⟨r', source'⟩ := out'
  cases hresult
  have hnow := h.supply hsource
  cases r with
  | fault f => exact ⟨rfl, hnow.conclude e .failure⟩
  | panic text => exact ⟨rfl, hnow.conclude e .panic⟩
  | value p =>
      dsimp only
      split
      · rename_i hempty
        exact closing_seen hnow he n.clock (firsts_of_isEmpty hempty)
      · split
        · exact ⟨rfl, hnow⟩
        · exact ⟨rfl, hnow.delayed _ _⟩

theorem ticking_seen (h : v.Same n m) (epoch : Nat) :
    v.SameTurn (n.ticking epoch) (m.ticking epoch) := by
  have hcollect : ∀ es : List Execution, (es.map Task.collect).filter v.shows =
      (es.filter fun e => v.showsJob e.job).map Task.collect := fun es => List.filter_map ..
  obtain ⟨hdispatched, hscheduler⟩ := h.scheduler.scan n.clock
  have hcurrent := h.scheduler.isCurrent epoch
  obtain ⟨context, clock, ready, asleep, scheduler, source₁, relay⟩ := m
  obtain rfl : n.context = context := h.context
  obtain rfl : n.clock = clock := h.clock
  have hperiod : (n.scheduler.scan n.clock).2.period = (scheduler.scan n.clock).2.period :=
    hscheduler.period
  unfold Node.ticking
  dsimp only at hcurrent ⊢
  rw [← hcurrent]
  split
  · refine ⟨?_, ?_⟩
    · exact (hcollect _).trans ((congrArg _ hdispatched).trans (hcollect _).symm)
    · have hnow : v.Same { n with scheduler := (n.scheduler.scan n.clock).2 }
          ⟨n.context, n.clock, ready, asleep, (scheduler.scan n.clock).2, source₁, relay⟩ :=
        ⟨rfl, rfl, h.ready, h.asleep, hscheduler, h.source, h.relay⟩
      dsimp only
      rw [hperiod]
      exact hnow.delayed _ _
  · exact ⟨rfl, h⟩

theorem delivering_hidden (hes : n.relay.exporters.Addressed) {s : Subscriber}
    (hs : v.urls s.key = true) (x : Snapshot) : v.Same (n.delivering s x) n := by
  have hrelay := SameRelay.launch_hidden hes n.clock hs x
  have hreply : ∀ status, v.shows (.reply s.key status) = false := by simp [shows, hs]
  have hsupply : ∀ r, v.SameRelay r n.relay → v.Same { n with relay := r } n := fun r hr =>
    ⟨rfl, rfl, rfl, rfl, .refl _, .refl _, hr⟩
  unfold Node.delivering
  generalize n.relay.launch n.clock s x = out at hrelay
  obtain ⟨l, r⟩ := out
  cases l with
  | awaiting millis status =>
      exact (Same.delayed_hidden _ _ (hreply status)).trans (hsupply r hrelay)
  | «over» | unanswered => exact hsupply r hrelay

theorem delivering_seen (h : v.Same n m) (hes : n.relay.exporters.Addressed) {s : Subscriber}
    (hs : v.urls s.key = false) (x : Snapshot) :
    v.Same (n.delivering s x) (m.delivering s x) := by
  obtain ⟨hlaunch, hrelay⟩ := h.relay.launch hes n.clock hs x
  obtain ⟨context, clock, ready, asleep, scheduler, source₁, relay⟩ := m
  obtain rfl : n.context = context := h.context
  obtain rfl : n.clock = clock := h.clock
  unfold Node.delivering
  dsimp only at hlaunch hrelay ⊢
  generalize n.relay.launch n.clock s x = out at hlaunch hrelay
  generalize relay.launch n.clock s x = out' at hlaunch hrelay
  obtain ⟨l, r⟩ := out
  obtain ⟨l', r'⟩ := out'
  cases hlaunch
  have hnow : v.Same { n with relay := r }
      ⟨n.context, n.clock, ready, asleep, scheduler, source₁, r'⟩ :=
    ⟨rfl, rfl, h.ready, h.asleep, h.scheduler, h.source, hrelay⟩
  cases l with
  | awaiting millis status => exact hnow.delayed _ _
  | «over» | unanswered => exact hnow

-- A task that is hidden does not show when it runs.
theorem perform_hidden (h : v.Sound n) {others : List Task} {t : Task}
    (hready : n.ready = t :: others) (ht : v.shows t = false) :
    v.SameTurn ({ n with ready := others }.perform t) ([], { n with ready := others }) := by
  have hmem : t ∈ n.tasks := List.mem_append_left _ (hready ▸ List.mem_cons_self)
  cases t with
  | tick epoch => cases ht
  | collect e =>
      exact collecting_hidden (n := { n with ready := others }) ht (h.fits hmem rfl)
  | close e started p =>
      exact closing_hidden (n := { n with ready := others }) ht (h.fits hmem rfl) started
        (h.firsts e started p hmem)
  | deliver s x =>
      refine ⟨rfl, delivering_hidden (n := { n with ready := others }) h.addressed ?_ x⟩
      simpa [shows] using ht
  | reply key status =>
      refine ⟨rfl, ⟨rfl, rfl, rfl, rfl, .refl _, .refl _, ?_⟩⟩
      exact SameRelay.record_hidden _ (by simpa [shows] using ht) ..

-- A task that shows runs in the same way.
theorem perform_seen (hsound : v.Sound n) (h : v.Same n m) {others others' : List Task} {t : Task}
    (hready : n.ready = t :: others) (ht : v.shows t = true)
    (hothers : others.filter v.shows = others'.filter v.shows) :
    v.SameTurn ({ n with ready := others }.perform t) ({ m with ready := others' }.perform t) := by
  have hmem : t ∈ n.tasks := List.mem_append_left _ (hready ▸ List.mem_cons_self)
  have hnow : v.Same { n with ready := others } { m with ready := others' } :=
    { h with ready := hothers }
  cases t with
  | tick epoch => exact ticking_seen hnow epoch
  | collect e => exact collecting_seen hnow ht
  | close e started p => exact closing_seen hnow ht started (hsound.firsts e started p hmem)
  | deliver s x =>
      refine ⟨rfl, delivering_seen hnow hsound.addressed ?_ x⟩
      simpa [shows] using ht
  | reply key status =>
      have hrecord : ∀ clock, n.clock = clock →
          v.SameRelay (n.relay.record key (isSuccess status) n.clock)
            (m.relay.record key (isSuccess status) clock) := by
        rintro clock rfl
        exact h.relay.record ..
      exact ⟨rfl, { hnow with relay := hrecord m.clock h.clock }⟩

theorem SameTurn.same_step {t t' : Task} {others others' : List Task}
    (h : v.SameTurn ({ n with ready := others }.perform t) ({ m with ready := others' }.perform t')) :
    v.Same (n.step t others) (m.step t' others') := by
  refine { h.node with ready := ?_ }
  simp only [Node.step, List.filter_append, h.woken, h.node.ready]

theorem departed_hidden {others : List Task} {t : Task} (hready : n.ready = t :: others)
    (ht : v.shows t = false) : n.departed (.perform 0) = [] := by
  have hidle : ∀ epoch, t = .tick epoch → n.scheduler.isCurrent epoch = false := by
    rintro epoch rfl
    cases ht
  rw [Node.departed, Node.dispatched_of_idle hready hidle]
  rfl

-- A tick dispatches the same executions that show in both nodes.
theorem departed_seen (h : v.Same n m) {others others' : List Task} {t : Task}
    (hready : n.ready = t :: others) (hready' : m.ready = t :: others') :
    ((n.departed (.perform 0)).filter fun d => v.showsJob d.2.job) =
      (m.departed (.perform 0)).filter fun d => v.showsJob d.2.job := by
  have hdeparted : ∀ k : Node, ((k.departed (.perform 0)).filter fun d => v.showsJob d.2.job) =
      ((k.dispatched (.perform 0)).filter fun e => v.showsJob e.job).map (k.clock, ·) :=
    fun _ => List.filter_map ..
  rw [hdeparted, hdeparted, h.clock]
  refine congrArg _ ?_
  by_cases htick : ∃ epoch, t = .tick epoch ∧ n.scheduler.isCurrent epoch = true
  · obtain ⟨epoch, rfl, hcurrent⟩ := htick
    have hcurrent' : m.scheduler.isCurrent epoch = true := by
      rwa [← h.scheduler.isCurrent]
    rw [(Node.perform_tick (Node.place_of_ready hready) hcurrent).1,
      (Node.perform_tick (Node.place_of_ready hready') hcurrent').1, ← h.clock]
    exact (h.scheduler.scan n.clock).1
  · have hidle : ∀ epoch, t = .tick epoch → n.scheduler.isCurrent epoch = false := by
      intro epoch heq
      rw [← Bool.not_eq_true]
      exact fun hcurrent => htick ⟨epoch, heq, hcurrent⟩
    have hidle' : ∀ epoch, t = .tick epoch → m.scheduler.isCurrent epoch = false := by
      intro epoch heq
      rw [← h.scheduler.isCurrent]
      exact hidle epoch heq
    rw [Node.dispatched_of_idle hready hidle, Node.dispatched_of_idle hready' hidle']

theorem Sound.step (h : v.Sound n) {others : List Task} {t : Task} (hready : n.ready = t :: others) :
    v.Sound (n.step t others) :=
  Node.after_of_ready hready ▸ h.perform 0

theorem Sound.facing (h : v.Sound n) (w : Transport) (t : Task) : v.Sound (n.facing w t) := by
  cases t with
  | deliver s x =>
      refine ⟨h.flight, h.jobs, h.work, h.firsts, ?_⟩
      change (n.relay.facing w n.clock s.key).exporters.Addressed
      unfold Relay.facing
      split <;> exact h.addressed
  | _ => exact h

-- A hidden task meets the transport at a hidden URL, one that shows meets the same answer.
theorem Same.facing_hidden (n : Node) (w : Transport) {t : Task} (ht : v.shows t = false) :
    v.Same (n.facing w t) n := by
  cases t with
  | deliver s x =>
      exact { refl n with relay := .facing_hidden _ (by simpa [shows] using ht) w n.clock }
  | _ => exact refl n

theorem Same.facing (h : v.Same n m) {w w' : Transport} (hw : v.SameTransport w w') {t : Task}
    (ht : v.shows t = true) : v.Same (n.facing w t) (m.facing w' t) := by
  cases t with
  | deliver s x =>
      have hurl : v.urls s.key = false := by simpa [shows] using ht
      refine { h with relay := ?_ }
      change v.SameRelay (n.relay.facing w n.clock s.key) (m.relay.facing w' m.clock s.key)
      rw [← h.clock]
      exact h.relay.facing hw hurl n.clock
  | _ => exact h

-- A node is the same before and after a hidden task of its own.
theorem Same.step_hidden (h : v.Same n m) (hn : v.Sound n) {others : List Task} {t : Task}
    (hready : n.ready = t :: others) (ht : v.shows t = false) : v.Same (n.step t others) m := by
  have hturn := perform_hidden hn hready ht
  have hothers : v.Same { n with ready := others } m := by
    refine { h with ready := ?_ }
    rw [← h.ready, hready, List.filter_cons_of_neg (by simp [ht])]
  refine Same.trans { hturn.node with ready := ?_ } hothers
  simp only [Node.step, List.filter_append, hturn.woken, hturn.node.ready, List.filter_nil,
    List.append_nil]

theorem Same.step_seen (h : v.Same n m) (hn : v.Sound n) {others others' : List Task} {t : Task}
    (hready : n.ready = t :: others) (hready' : m.ready = t :: others') (ht : v.shows t = true) :
    v.Same (n.step t others) (m.step t others') := by
  refine (perform_seen hn h hready ht ?_).same_step
  have hsame := h.ready
  rw [hready, hready', List.filter_cons_of_pos ht, List.filter_cons_of_pos ht] at hsame
  exact List.tail_eq_of_cons_eq hsame

end Veil

end MetricRelay
