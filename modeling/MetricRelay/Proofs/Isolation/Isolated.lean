import MetricRelay.Proofs.Isolation.TwoRuns

namespace MetricRelay

-- Whether a URL got the same requests from two relays, and their breakers answer the same about it
-- at any time.
structure Relay.SameAt (url : String) (r r' : Relay) : Prop where
  requests : r.requestsTo url = r'.requestsTo url
  check : ∀ now, r.breaker.check url now = r'.breaker.check url now
  state : ∀ now, r.breaker.state url now = r'.breaker.state url now
  failures : r.breaker.failures url = r'.breaker.failures url
  retryIn : ∀ now, r.breaker.retryIn url now = r'.breaker.retryIn url now

namespace Sentinel

-- Whether the jobs of an entry read something, and whether they post to a URL.
def reads (a : Sentinel) (r : Reading) : Bool :=
  a.tasks.any fun k => k.readings.contains r

def posts (a : Sentinel) (url : String) : Bool :=
  a.subscribers.any fun s => s.key == url

-- Whether some kinds rest on nothing that the entry reads.
def apart (a : Sentinel) (kinds : List Kind) : Bool :=
  !kinds.any fun k => k.readings.any a.reads

end Sentinel

namespace Veil

variable {v : Veil}

-- Behind it are the answers of one URL.
def ofUrl (url : String) : Veil :=
  ⟨fun _ => false, (· == url)⟩

-- Behind it is all that the jobs of an entry have to do with.
def ofEntry (a : Sentinel) : Veil :=
  ⟨a.reads, a.posts⟩

theorem SameRelay.sameAt {r r' : Relay} (h : v.SameRelay r r') {url : String}
    (hurl : v.urls url = false) : r.SameAt url r' := by
  have hcircuit := h.circuits url hurl
  refine ⟨h.requestsTo hurl, h.check hurl, fun now => ?_, ?_, fun now => ?_⟩
  · simp only [Breaker.state, hcircuit, h.policy]
  · simp only [Breaker.failures, hcircuit]
  · simp only [Breaker.retryIn, hcircuit]

-- No job rests on the answers of a URL.
theorem showsJob_ofUrl (url : String) (j : Job) : (ofUrl url).showsJob j = true := by
  simp [showsJob, touches, ofUrl]

theorem admits_ofUrl (url : String) (s : Stimulus) : (ofUrl url).Admits s := by
  intro entries _ entry _ _ htouches
  simp [touches, ofUrl] at htouches

-- What an entry reads, and where it posts to, is behind its veil.
theorem confines_ofEntry {a b : Sentinel} (h : b = a ∨ a.apart b.tasks = true) :
    (ofEntry a).Confines b.tasks b.subscribers := by
  intro htouches
  obtain rfl | hapart := h
  · refine ⟨fun r hr => ?_, fun s hs => ?_⟩
    · obtain ⟨k, hk, hr⟩ := hr
      exact List.any_eq_true.mpr ⟨k, hk, List.contains_iff_mem.mpr hr⟩
    · exact List.any_eq_true.mpr ⟨s, hs, beq_self_eq_true _⟩
  · have htouches : (!a.apart b.tasks) = true := by rwa [Sentinel.apart, Bool.not_not]
    rw [hapart] at htouches
    cases htouches

end Veil

namespace Node

-- Two runs in which only one destination answers differently: it may be down, late or silent at any
-- time. The jobs go on in the same way, executions are dispatched at the same times, and all other
-- destinations get the same requests at the same times and are in the same standing with the
-- breaker. This holds at any time, as a sleep can be cut anywhere.
theorem destination_isolated (context : Context) (source : Source) {relay : Relay}
    (hes : relay.exporters.Addressed) {w w' : Transport} {url : String}
    (hw : ∀ other, other ≠ url → w other = w' other) (ss : List Stimulus) :
    let start := Node.new context source relay
    let n := start.through w ss
    let m := start.through w' ss
    n.clock = m.clock ∧ n.scheduler.active = m.scheduler.active ∧ n.status = m.status ∧
      start.departuresThrough w ss = start.departuresThrough w' ss ∧
      ∀ other, other ≠ url → n.relay.SameAt other m.relay := by
  intro start n m
  have hurl : ∀ other, (Veil.ofUrl url).urls other = false ↔ other ≠ url := fun _ =>
    beq_eq_false_iff_ne
  have hsound : (Veil.ofUrl url).Sound start := .new context source hes
  obtain ⟨hsame, hseen⟩ := (Veil.Same.refl start).through hsound hsound
    (fun other hother => hw other ((hurl other).mp hother))
    (fun s _ => Veil.admits_ofUrl url s)
  have hall : ∀ js : List Job, js.filter (Veil.ofUrl url).showsJob = js := fun js =>
    List.filter_eq_self.mpr fun j _ => Veil.showsJob_ofUrl url j
  have hactive : n.scheduler.active = m.scheduler.active := by
    have := hsame.scheduler.active
    rwa [hall, hall] at this
  refine ⟨hsame.clock, hactive, ?_, ?_, fun other hother => ?_⟩
  · have hclock : n.clock = m.clock := hsame.clock
    simp only [status, Scheduler.status, hactive, hclock]
  · have hnone : ∀ ds : List (Nat × Execution), (Veil.ofUrl url).seen ds = ds := fun ds =>
      List.filter_eq_self.mpr fun d _ => Veil.showsJob_ofUrl url d.2.job
    rwa [hnone, hnone] at hseen
  · exact hsame.relay.sameAt ((hurl other).mpr hother)

-- The second request to one of two destinations of a job is refused. The breaker takes note of it,
-- and the other destination gets its requests as if nothing had happened.
theorem destination_isolated_refused :
    let entry : Sentinel :=
      ⟨[.gc], [⟨"http://north", .http, none⟩, ⟨"http://south", .http, none⟩], -1, 1, []⟩
    let start : Node := .new ⟨"east", 500, false⟩ .idle (.new .standard)
    let kind : Transport := fun _ _ _ => .status 200
    let rude : Transport := fun url before _ =>
      if url = "http://north" ∧ before.length = 1 then .refused else .status 200
    let ss : List Stimulus := [.start [entry], .sleep 1500]
    let n := start.through kind ss
    let m := start.through rude ss
    n.scheduler.active = m.scheduler.active ∧ n.relay.SameAt "http://south" m.relay ∧
      m.relay.arrivals "http://south" = [0, 1000] ∧
      n.relay.breaker.failures "http://north" = 0 ∧
      m.relay.breaker.failures "http://north" = 1 := by
  intro entry start kind rude ss n m
  have hw : ∀ other, other ≠ "http://north" → kind other = rude other := by
    intro other hother
    funext before now
    exact (if_neg fun h => hother h.1).symm
  have hes : (Relay.new .standard).exporters.Addressed := Exporters.standard_addressed
  obtain ⟨-, hactive, -, -, hothers⟩ :=
    destination_isolated ⟨"east", 500, false⟩ .idle hes hw ss
  have hkind : ((runWithin? kind 10 1500 3 (start.start [entry]).2).map
      fun n => n.relay.breaker.failures "http://north") = some 0 := by decide +kernel +zetaReduce
  have hrude : ((runWithin? rude 10 1500 3 (start.start [entry]).2).map fun n =>
      (n.relay.arrivals "http://south", n.relay.breaker.failures "http://north")) =
        some ([0, 1000], 1) := by decide +kernel +zetaReduce
  obtain ⟨n', hn, hkept⟩ := Option.map_eq_some_iff.mp hkind
  obtain ⟨m', hm, hnoted⟩ := Option.map_eq_some_iff.mp hrude
  have hn' : n = n' := runUntilVia_of_within hn
  have hm' : m = m' := runUntilVia_of_within hm
  refine ⟨hactive, hothers "http://south" (by decide), ?_, ?_, ?_⟩
  · rw [hm']
    exact congrArg Prod.fst hnoted
  · rw [hn']
    exact hkept
  · rw [hm']
    exact congrArg Prod.snd hnoted

-- Two runs in which only what the jobs of one entry read differs: it may change, fail or panic at
-- any reading. If no other entry that is active reads any of it, the jobs of the others go on in the
-- same way and their executions are dispatched at the same times, and all destinations but those of
-- the entry get the same requests at the same times and are in the same standing with the breaker.
theorem job_isolated (context : Context) {source source' : Source} {relay : Relay}
    (hes : relay.exporters.Addressed) (w : Transport) {a : Sentinel}
    (hsource : ∀ r, a.reads r = false → source.feed r = source'.feed r) {ss : List Stimulus}
    (hss : ∀ entries, .start entries ∈ ss → ∀ b ∈ entries, b.isActive = true →
      b = a ∨ a.apart b.tasks = true) :
    let start := Node.new context source relay
    let start' := Node.new context source' relay
    let n := start.through w ss
    let m := start'.through w ss
    n.clock = m.clock ∧
      (n.scheduler.active.filter fun j => a.apart j.tasks) =
        (m.scheduler.active.filter fun j => a.apart j.tasks) ∧
      ((start.departuresThrough w ss).filter fun d => a.apart d.2.job.tasks) =
        ((start'.departuresThrough w ss).filter fun d => a.apart d.2.job.tasks) ∧
      ∀ url, a.posts url = false → n.relay.SameAt url m.relay := by
  intro start start' n m
  have hstart : (Veil.ofEntry a).Same start start' :=
    { Veil.Same.refl start with source := hsource }
  have hadmits : ∀ s ∈ ss, (Veil.ofEntry a).Admits s := by
    rintro s hs entries rfl b hb hactive
    exact Veil.confines_ofEntry (hss entries hs b hb hactive)
  obtain ⟨hsame, hseen⟩ := hstart.through (.new context source hes) (.new context source' hes)
    (fun _ _ => rfl) hadmits
  exact ⟨hsame.clock, hsame.scheduler.active, hseen, fun url hurl => hsame.relay.sameAt hurl⟩

-- The first collection of one of two jobs panics, and all its others fail. Nothing is sent for it,
-- and the other job goes on.
theorem job_isolated_panicking :
    let a : Sentinel := ⟨[.gc], [⟨"http://north", .http, none⟩], 3, 1, []⟩
    let b : Sentinel := ⟨[.thread], [⟨"http://south", .http, none⟩], -1, 2, []⟩
    let broken : Source := { Source.idle with
      gc := .of fun i => if i = 0 then .panic "no beans" else .fault (.provider "no beans") }
    let start : Node := .new ⟨"east", 500, false⟩ .idle (.new .standard)
    let start' : Node := .new ⟨"east", 500, false⟩ broken (.new .standard)
    let kind : Transport := fun _ _ _ => .status 200
    let ss : List Stimulus := [.start [a, b], .sleep 2500]
    let n := start.through kind ss
    let m := start'.through kind ss
    (n.scheduler.active.filter fun j => a.apart j.tasks) =
        (m.scheduler.active.filter fun j => a.apart j.tasks) ∧
      n.relay.SameAt "http://south" m.relay ∧
      n.relay.arrivals "http://north" = [0, 1000, 2000] ∧ m.relay.arrivals "http://north" = [] ∧
      m.relay.arrivals "http://south" = [0, 2000] := by
  intro a b broken start start' kind ss n m
  have hsource : ∀ r, a.reads r = false → Source.idle.feed r = broken.feed r := by
    intro r hr
    cases r with
    | gc => cases hr
    | _ => rfl
  have hss : ∀ entries, .start entries ∈ ss → ∀ e ∈ entries, e.isActive = true →
      e = a ∨ a.apart e.tasks = true := by
    intro entries hentries e he _
    rcases List.mem_cons.mp hentries with heq | hentries
    · cases heq
      rcases List.mem_cons.mp he with rfl | he
      · exact .inl rfl
      · cases List.mem_singleton.mp he
        exact .inr rfl
    · cases List.mem_singleton.mp hentries
  have hes : (Relay.new .standard).exporters.Addressed := Exporters.standard_addressed
  obtain ⟨-, hactive, -, hothers⟩ := job_isolated ⟨"east", 500, false⟩ hes kind hsource hss
  have hsound : ((runWithin? kind 10 2500 4 (start.start [a, b]).2).map
      fun n => n.relay.arrivals "http://north") = some [0, 1000, 2000] := by
    decide +kernel +zetaReduce
  have hbroken : ((runWithin? kind 10 2500 4 (start'.start [a, b]).2).map fun n =>
      (n.relay.arrivals "http://north", n.relay.arrivals "http://south")) =
        some ([], [0, 2000]) := by decide +kernel +zetaReduce
  obtain ⟨n', hn, hsent⟩ := Option.map_eq_some_iff.mp hsound
  obtain ⟨m', hm, hkept⟩ := Option.map_eq_some_iff.mp hbroken
  have hn' : n = n' := runUntilVia_of_within hn
  have hm' : m = m' := runUntilVia_of_within hm
  refine ⟨hactive, hothers "http://south" (by decide), ?_, ?_, ?_⟩
  · rw [hn']
    exact hsent
  · rw [hm']
    exact congrArg Prod.fst hkept
  · rw [hm']
    exact congrArg Prod.snd hkept

end Node

end MetricRelay
