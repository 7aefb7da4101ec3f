import MetricRelay.Proofs.Collection.FirstReadings

namespace MetricRelay

-- What can be read of a source, one for each feed.
inductive Reading where
  | process
  | disks
  | cpuCount
  | loadAverage
  | systemMemory
  | fileStores
  | runtimeMemory
  | threads
  | gc
  | listening
  | cpuTicks
  | diskCounters
  | netCounters
deriving DecidableEq

-- The readings that a kind rests on.
def Kind.readings : Kind → List Reading
  | .process => [.process]
  | .disk => [.disks]
  | .sys => [.cpuCount, .loadAverage, .systemMemory]
  | .sysFile => [.fileStores]
  | .memory => [.runtimeMemory]
  | .thread => [.threads]
  | .gc => [.gc]
  | .port => [.listening]
  | .cpu => [.cpuTicks, .cpuCount]
  | .diskIo => [.diskCounters]
  | .network => [.netCounters]

def Reading.Value : Reading → Type
  | process => ProcessInfo
  | disks => List DiskInfo
  | cpuCount => UInt64
  | loadAverage => LoadAverage
  | systemMemory => SystemMemory
  | fileStores => List FileStore
  | runtimeMemory => RuntimeMemory
  | threads => ThreadInfo
  | gc => List GcInfo
  -- what will be told about whichever ports are asked for
  | listening => List UInt16 → Ending (List PortState)
  | cpuTicks => CpuTicks
  | diskCounters => List DiskCounters
  | netCounters => List NetCounters

namespace Source

def feed (s : Source) : (r : Reading) → Feed r.Value
  | .process => s.process
  | .disks => s.disks
  | .cpuCount => s.cpuCount
  | .loadAverage => s.loadAverage
  | .systemMemory => s.systemMemory
  | .fileStores => s.fileStores
  | .runtimeMemory => s.runtimeMemory
  | .threads => s.threads
  | .gc => s.gc
  | .listening => s.listening.andThen fun listening => .value (s.portStates listening)
  | .cpuTicks => s.cpuTicks
  | .diskCounters => s.diskCounters
  | .netCounters => s.netCounters

-- The source after one more reading.
def after (s : Source) : Reading → Source
  | .process => { s with process := s.process.next.2 }
  | .disks => { s with disks := s.disks.next.2 }
  | .cpuCount => { s with cpuCount := s.cpuCount.next.2 }
  | .loadAverage => { s with loadAverage := s.loadAverage.next.2 }
  | .systemMemory => { s with systemMemory := s.systemMemory.next.2 }
  | .fileStores => { s with fileStores := s.fileStores.next.2 }
  | .runtimeMemory => { s with runtimeMemory := s.runtimeMemory.next.2 }
  | .threads => { s with threads := s.threads.next.2 }
  | .gc => { s with gc := s.gc.next.2 }
  | .listening => { s with listening := s.listening.next.2 }
  | .cpuTicks => { s with cpuTicks := s.cpuTicks.next.2 }
  | .diskCounters => { s with diskCounters := s.diskCounters.next.2 }
  | .netCounters => { s with netCounters := s.netCounters.next.2 }

theorem feed_after (s : Source) (r : Reading) : (s.after r).feed r = (s.feed r).next.2 := by
  cases r with
  | listening => exact (Feed.andThen_next_snd ..).symm
  | _ => rfl

theorem feed_after_ne (s : Source) {r other : Reading} (h : other ≠ r) :
    (s.after r).feed other = s.feed other := by
  cases r <;> cases other <;> first | rfl | exact absurd rfl h

-- What is told about some ports is what is told about whichever ports, looked up for these.
theorem ports_eq_feed (s : Source) (asked : List UInt16) :
    s.ports asked = (s.feed .listening).andThen fun tell => tell asked := by
  simp only [ports, feed, Feed.andThen, Feed.mk.injEq, and_true]
  funext n
  cases s.listening.replies n <;> rfl

end Source

-- Whether what is done to a source looks at no feeds but those of some readings, and changes no
-- others.
structure Confined {β : Type} (S : Reading → Prop) (p : Source → β × Source) : Prop where
  frame : ∀ s r, ¬S r → (p s).2.feed r = s.feed r
  congr : ∀ s s', (∀ r, S r → s.feed r = s'.feed r) →
    (p s).1 = (p s').1 ∧ ∀ r, S r → (p s).2.feed r = (p s').2.feed r

namespace Confined

variable {α β : Type} {S S' : Reading → Prop}

theorem mono {p : Source → β × Source} (h : Confined S p) (hS : ∀ r, S r → S' r) :
    Confined S' p where
  frame s r hr := h.frame s r fun hold => hr (hS r hold)
  congr s s' hsame := by
    obtain ⟨hresult, hafter⟩ := h.congr s s' fun r hr => hsame r (hS r hr)
    refine ⟨hresult, fun r hr => ?_⟩
    by_cases hold : S r
    · exact hafter r hold
    · rw [h.frame s r hold, h.frame s' r hold]
      exact hsame r hr

theorem const (b : β) : Confined S fun s => (b, s) :=
  ⟨fun _ _ _ => rfl, fun _ _ hsame => ⟨rfl, hsame⟩⟩

theorem pure (a : α) : Confined S (Pure.pure a : Probe α) :=
  const (Ending.value a)

theorem map {p : Source → α × Source} (h : Confined S p) (f : α → β) :
    Confined S fun s => (f (p s).1, (p s).2) :=
  ⟨h.frame, fun s s' hsame => ⟨congrArg f (h.congr s s' hsame).1, (h.congr s s' hsame).2⟩⟩

theorem bind {p : Probe α} {next : α → Probe β} (h : Confined S p)
    (hnext : ∀ a, Confined S (next a)) : Confined S (p >>= next) := by
  constructor
  · intro s r hr
    have hframe := h.frame s r hr
    change (Probe.andThen p next s).2.feed r = _
    unfold Probe.andThen
    split
    · rename_i a s' hp
      rw [hp] at hframe
      rw [(hnext a).frame s' r hr, hframe]
    all_goals
      rename_i hp
      rwa [hp] at hframe
  · intro s s' hsame
    obtain ⟨hresult, hafter⟩ := h.congr s s' hsame
    change (Probe.andThen p next s).1 = (Probe.andThen p next s').1 ∧
      ∀ r, S r → (Probe.andThen p next s).2.feed r = (Probe.andThen p next s').2.feed r
    unfold Probe.andThen
    cases hp : p s with
    | mk e s₁ =>
        cases hp' : p s' with
        | mk e' s₁' =>
            rw [hp, hp'] at hresult hafter
            cases hresult
            cases e with
            | value a => exact (hnext a).congr s₁ s₁' hafter
            | fault | panic => exact ⟨rfl, hafter⟩

end Confined

-- One reading.
def Probe.read (r : Reading) : Probe r.Value :=
  fun s => ((s.feed r).next.1, s.after r)

theorem Probe.portStates_eq (asked : List UInt16) :
    Probe.portStates asked = Probe.read .listening >>= fun tell s => (tell asked, s) := by
  funext s
  change ((s.ports asked).next.1, s.after .listening) =
    Probe.andThen (Probe.read .listening) (fun tell s => (tell asked, s)) s
  rw [s.ports_eq_feed asked]
  cases hblocked : (s.feed .listening).blocked with
  | some e => simp [Probe.andThen, Probe.read, Feed.next, Feed.andThen, hblocked]
  | none =>
      cases hreply : (s.feed .listening).replies (s.feed .listening).taken <;>
        simp [Probe.andThen, Probe.read, Feed.next, Feed.andThen, hblocked, hreply, Ending.andThen]

theorem Confined.read {S : Reading → Prop} {r : Reading} (h : S r) : Confined S (Probe.read r) := by
  constructor
  · intro s other hother
    have hne : other ≠ r := fun heq => hother (heq.symm ▸ h)
    exact s.feed_after_ne hne
  · intro s s' hsame
    simp only [Probe.read, hsame r h]
    refine ⟨trivial, fun other hother => ?_⟩
    by_cases heq : other = r
    · subst heq
      rw [Source.feed_after, Source.feed_after, hsame other h]
    · rw [Source.feed_after_ne _ heq, Source.feed_after_ne _ heq]
      exact hsame other hother

namespace Collection

-- The readings that some kinds rest on.
def readsFor (kinds : List Kind) (r : Reading) : Prop :=
  ∃ k ∈ kinds, r ∈ k.readings

private theorem confined_readings {k : Kind} (r : Reading) (h : r ∈ k.readings) :
    Confined (· ∈ k.readings) (Probe.read r) :=
  .read h

theorem confined_still (ports : List UInt16) (x : Snapshot) (k : Kind) :
    Confined (· ∈ k.readings) (still ports x k) := by
  cases k with
  | process => exact (confined_readings .process (by decide)).bind fun _ => .pure _
  | disk => exact (confined_readings .disks (by decide)).bind fun _ => .pure _
  | sys =>
      exact (confined_readings .cpuCount (by decide)).bind fun _ =>
        (confined_readings .loadAverage (by decide)).bind fun _ =>
          (confined_readings .systemMemory (by decide)).bind fun _ => .pure _
  | sysFile => exact (confined_readings .fileStores (by decide)).bind fun _ => .pure _
  | memory => exact (confined_readings .runtimeMemory (by decide)).bind fun _ => .pure _
  | thread => exact (confined_readings .threads (by decide)).bind fun _ => .pure _
  | gc => exact (confined_readings .gc (by decide)).bind fun _ => .pure _
  | port =>
      have hports : Confined (· ∈ Kind.port.readings) (Probe.portStates ports) := by
        rw [Probe.portStates_eq]
        exact (confined_readings .listening (by decide)).bind fun tell => .const (tell ports)
      exact hports.bind fun _ => .pure _
  | cpu | diskIo | network => exact .pure _

theorem confined_first (k : Kind) : Confined (· ∈ k.readings) (first k) := by
  cases k with
  | cpu =>
      exact (confined_readings .cpuTicks (by decide)).bind fun _ =>
        (confined_readings .cpuCount (by decide)).bind fun _ => .pure _
  | diskIo => exact (confined_readings .diskCounters (by decide)).bind fun _ => .pure _
  | network => exact (confined_readings .netCounters (by decide)).bind fun _ => .pure _
  | _ => exact .pure _

theorem confined_second (elapsed : Span) (f : First) :
    Confined (· ∈ f.kind.readings) (second elapsed f) := by
  cases f with
  | cpu =>
      exact (confined_readings (k := .cpu) .cpuTicks (by decide)).bind fun _ => .pure _
  | diskIo =>
      exact (confined_readings (k := .diskIo) .diskCounters (by decide)).bind fun _ => .pure _
  | network =>
      exact (confined_readings (k := .network) .netCounters (by decide)).bind fun _ => .pure _

section

variable {S : Reading → Prop}

theorem confined_stillAll (ports : List UInt16) {kinds : List Kind}
    (hS : ∀ r, readsFor kinds r → S r) (x : Snapshot) : Confined S (stillAll ports kinds x) := by
  induction kinds generalizing x with
  | nil => exact .pure x
  | cons k rest ih =>
      have hk : Confined S (still ports x k) :=
        (confined_still ports x k).mono fun r hr => hS r ⟨k, List.mem_cons_self, hr⟩
      refine hk.bind fun x' => ih (fun r hr => ?_) x'
      obtain ⟨k', hk', hr⟩ := hr
      exact hS r ⟨k', List.mem_cons_of_mem k hk', hr⟩

theorem confined_firstAll {kinds : List Kind} (hS : ∀ r, readsFor kinds r → S r) :
    Confined S (firstAll kinds) := by
  induction kinds with
  | nil => exact .pure []
  | cons k rest ih =>
      have hk : Confined S (first k) :=
        (confined_first k).mono fun r hr => hS r ⟨k, List.mem_cons_self, hr⟩
      refine hk.bind fun f => (ih fun r hr => ?_).bind fun _ => .pure _
      obtain ⟨k', hk', hr⟩ := hr
      exact hS r ⟨k', List.mem_cons_of_mem k hk', hr⟩

-- The first half of a collection looks at nothing but what its kinds rest on.
theorem confined_start (node : String) (timestamp : Timestamp) (kinds : List Kind)
    (ports : List UInt16) : Confined (readsFor kinds) (start node timestamp kinds ports) := by
  have hrequested : ∀ r, readsFor (Kind.requested kinds) r → readsFor kinds r := by
    rintro r ⟨k, hk, hr⟩
    exact ⟨k, Kind.mem_requested.mp hk, hr⟩
  exact (confined_stillAll ports hrequested _).bind fun _ =>
    (confined_firstAll hrequested).bind fun _ => .pure _

theorem confined_contributions (elapsed : Span) {fs : List First}
    (hS : ∀ r, readsFor (fs.map First.kind) r → S r) (j : Join Snapshot) :
    Confined S (contributions elapsed fs j) := by
  induction fs generalizing j with
  | nil => exact .const none
  | cons f rest ih =>
      have hf : Confined S (second elapsed f) :=
        (confined_second elapsed f).mono fun r hr => hS r ⟨f.kind, List.mem_cons_self, hr⟩
      have hrest : ∀ j, Confined S (contributions elapsed rest j) := by
        refine ih fun r hr => ?_
        obtain ⟨k, hk, hr⟩ := hr
        exact hS r ⟨k, List.mem_cons_of_mem _ hk, hr⟩
      constructor
      · intro s r hr
        have hframe := hf.frame s r hr
        cases hsecond : second elapsed f s with
        | mk e s₁ =>
            rw [hsecond] at hframe
            cases e <;>
              (simp only [contributions, hsecond]; rw [(hrest _).frame s₁ r hr, hframe])
      · intro s s' hsame
        obtain ⟨hresult, hafter⟩ := hf.congr s s' hsame
        cases hsecond : second elapsed f s with
        | mk e s₁ =>
            cases hsecond' : second elapsed f s' with
            | mk e' s₁' =>
                rw [hsecond, hsecond'] at hresult hafter
                cases hresult
                cases e <;>
                  (simp only [contributions, hsecond, hsecond']
                   obtain ⟨hdelivery, hlater⟩ := (hrest _).congr s₁ s₁' hafter
                   exact ⟨by rw [hdelivery], hlater⟩)

-- The second half looks at nothing but what the rates rest on that were read once.
theorem confined_finish (elapsed : Span) (p : Pending) :
    Confined (readsFor (p.firsts.map First.kind)) (finish elapsed p) := by
  cases hclose : (Join.expecting (UInt64.ofNat p.firsts.length) p.sofar).close.1 with
  | some d =>
      have hfinish : finish elapsed p = fun s => (d, s) := by
        funext s
        simp only [finish, finish?, hclose, Option.getD_some]
      rw [hfinish]
      exact .const d
  | none =>
      let late := contributions elapsed p.firsts
        (Join.expecting (UInt64.ofNat p.firsts.length) p.sofar).close.2
      have hlate : Confined (readsFor (p.firsts.map First.kind)) late :=
        confined_contributions elapsed (fun _ hr => hr) _
      have hfinish : finish elapsed p =
          fun s => ((late s).1.getD (.error undelivered), (late s).2) := by
        funext s
        simp only [finish, finish?, hclose, late]
      rw [hfinish]
      exact hlate.map fun d => d.getD (.error undelivered)

end

-- What waits for its second reading is a rate that was asked for.
theorem gives_first_kind (k : Kind) : (first k).Gives fun f => ∀ x ∈ f, x.kind = k := by
  cases k with
  | cpu =>
      refine (Probe.gives_true _).bind fun _ _ => (Probe.gives_true _).bind fun _ _ => .pure ?_
      rintro x ⟨⟩
      rfl
  | diskIo | network =>
      refine (Probe.gives_true _).bind fun _ _ => .pure ?_
      rintro x ⟨⟩
      rfl
  | _ => exact .pure nofun

theorem gives_firstAll_kinds (kinds : List Kind) :
    (firstAll kinds).Gives fun fs => ∀ f ∈ fs, f.kind ∈ kinds := by
  induction kinds with
  | nil => exact .pure nofun
  | cons k rest ih =>
      refine (gives_first_kind k).bind fun f hf => ih.bind fun fs hfs => .pure fun x hx => ?_
      rcases List.mem_append.mp hx with hx | hx
      · rw [hf x (Option.mem_toList.mp hx)]
        exact List.mem_cons_self
      · exact List.mem_cons_of_mem k (hfs x hx)

theorem gives_start_kinds (node : String) (timestamp : Timestamp) (kinds : List Kind)
    (ports : List UInt16) :
    (start node timestamp kinds ports).Gives fun p => ∀ f ∈ p.firsts, f.kind ∈ kinds := by
  refine (Probe.gives_true _).bind fun x _ => (gives_firstAll_kinds _).bind fun fs hfs =>
    .pure fun f hf => ?_
  exact Kind.mem_requested.mp (hfs f hf)

end Collection

end MetricRelay
