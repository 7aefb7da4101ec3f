import MetricRelay.Proofs.Collection.Halves
import MetricRelay.Reading.Canned

namespace MetricRelay

namespace Snapshot

-- Whether two snapshots have the same section for a kind.
def SameSection (x y : Snapshot) : Kind → Prop
  | .process => x.process = y.process
  | .disk => x.disk = y.disk
  | .sys => x.sys = y.sys
  | .sysFile => x.sysFile = y.sysFile
  | .memory => x.memory = y.memory
  | .thread => x.thread = y.thread
  | .gc => x.gc = y.gc
  | .port => x.port = y.port
  | .cpu => x.cpu = y.cpu
  | .diskIo => x.diskIo = y.diskIo
  | .network => x.network = y.network

def has (x : Snapshot) : Kind → Bool
  | .process => x.process.isSome
  | .disk => x.disk.isSome
  | .sys => x.sys.isSome
  | .sysFile => x.sysFile.isSome
  | .memory => x.memory.isSome
  | .thread => x.thread.isSome
  | .gc => x.gc.isSome
  | .port => x.port.isSome
  | .cpu => x.cpu.isSome
  | .diskIo => x.diskIo.isSome
  | .network => x.network.isSome

theorem SameSection.trans {x y z : Snapshot} {k : Kind} (h : SameSection x y k)
    (h' : SameSection y z k) : SameSection x z k := by
  cases k <;> exact Eq.trans h h'

theorem eq_of_sameSection {x y : Snapshot} (hnode : x.node = y.node)
    (htime : x.timestamp = y.timestamp) (h : ∀ k, SameSection x y k) : x = y := by
  cases x
  cases y
  simp only [mk.injEq]
  exact ⟨hnode, htime, h .process, h .disk, h .sys, h .sysFile, h .memory, h .thread, h .gc,
    h .port, h .cpu, h .diskIo, h .network⟩

theorem kept_foldl {β γ : Type} {fill : Snapshot → β → Snapshot} (get : Snapshot → γ)
    (h : ∀ x b, get (fill x b) = get x) (l : List β) (x : Snapshot) :
    get (l.foldl fill x) = get x := by
  induction l generalizing x with
  | nil => rfl
  | cons b rest ih => rw [List.foldl_cons, ih, h]

-- Filling in sections one after the other, each of its own kind and each as in a given snapshot,
-- makes these sections those of the snapshot and leaves the others alone.
theorem sameSection_foldl {β : Type} {fill : Snapshot → β → Snapshot} (kindOf : β → Kind)
    {target : Snapshot} {l : List β}
    (hfill : ∀ b ∈ l, ∀ x, SameSection (fill x b) target (kindOf b))
    (hother : ∀ b ∈ l, ∀ x k, k ≠ kindOf b → SameSection (fill x b) x k) (x : Snapshot) (k : Kind) :
    SameSection (l.foldl fill x) (if k ∈ l.map kindOf then target else x) k := by
  -- from the end: what is filled in last for a kind is what its section keeps
  induction l using List.reverseRecOn with
  | nil => cases k <;> rfl
  | append_singleton rest b ih =>
      rw [List.foldl_append, List.map_append]
      by_cases hk : k = kindOf b
      · have hmem : k ∈ rest.map kindOf ++ [b].map kindOf := by simp [hk]
        rw [if_pos hmem, hk]
        exact hfill b (by simp) _
      · have hmem : k ∈ rest.map kindOf ++ [b].map kindOf ↔ k ∈ rest.map kindOf := by simp [hk]
        simp only [hmem]
        exact (hother b (by simp) _ k hk).trans
          (ih (fun b hb => hfill b (by simp [hb])) (fun b hb => hother b (by simp [hb])))

end Snapshot

namespace Source

-- The source after one reading of all that rates are made of.
def ratesRead (s : Source) : Source :=
  { s with
    cpuTicks := s.cpuTicks.past 1
    diskCounters := s.diskCounters.past 1
    netCounters := s.netCounters.past 1 }

theorem NeverPanics.foldl {f : Source → Kind → Source}
    (hf : ∀ {s : Source}, s.NeverPanics → ∀ k, (f s k).NeverPanics) {s : Source}
    (h : s.NeverPanics) (ks : List Kind) : (ks.foldl f s).NeverPanics :=
  List.foldlRecOn ks f h fun _ hs k _ => hf hs k

theorem NeverPanics.ratesRead {s : Source} (h : s.NeverPanics) : s.ratesRead.NeverPanics :=
  { h with
    cpuTicks := h.cpuTicks.past 1
    diskCounters := h.diskCounters.past 1
    netCounters := h.netCounters.past 1 }

-- The only readings for kinds leave alone what rates are made of, except that they may count the
-- processors.
theorem foldl_pastStill {ks : List Kind} (hks : ks.Nodup) (s : Source) :
    let s' := ks.foldl pastStill s
    s'.cpuTicks = s.cpuTicks ∧ s'.diskCounters = s.diskCounters ∧
      s'.netCounters = s.netCounters ∧
      s'.cpuCount = s.cpuCount.past (if .sys ∈ ks then 1 else 0) := by
  induction ks generalizing s with
  | nil => exact ⟨rfl, rfl, rfl, (Feed.past_zero _).symm⟩
  | cons k rest ih =>
      obtain ⟨hk, hrest⟩ := List.nodup_cons.mp hks
      obtain ⟨hcpu, hdisk, hnet, hcount⟩ := ih hrest (s.pastStill k)
      refine ⟨hcpu.trans ?_, hdisk.trans ?_, hnet.trans ?_, hcount.trans ?_⟩
      · cases k <;> rfl
      · cases k <;> rfl
      · cases k <;> rfl
      · cases k <;> simp_all [pastStill, Feed.past_zero]

theorem foldl_pastFirst {ks : List Kind} (hks : ks.Nodup) (s : Source) :
    let s' := ks.foldl pastFirst s
    s'.cpuTicks = s.cpuTicks.past (if .cpu ∈ ks then 1 else 0) ∧
      s'.diskCounters = s.diskCounters.past (if .diskIo ∈ ks then 1 else 0) ∧
      s'.netCounters = s.netCounters.past (if .network ∈ ks then 1 else 0) := by
  induction ks generalizing s with
  | nil => simp
  | cons k rest ih =>
      obtain ⟨hk, hrest⟩ := List.nodup_cons.mp hks
      obtain ⟨hcpu, hdisk, hnet⟩ := ih hrest (s.pastFirst k)
      refine ⟨hcpu.trans ?_, hdisk.trans ?_, hnet.trans ?_⟩ <;> cases k <;> simp_all [pastFirst]

end Source

theorem CannedHost.neverPanics_source (m : CannedHost) : m.source.NeverPanics := by
  constructor <;> intro n text <;> nofun

namespace Collection

open Probe

-- How often the processors are counted before the first reading of their ticks.
def countedBefore (kinds : List Kind) : Nat :=
  if .sys ∈ kinds then 1 else 0

-- The fault of the first reading that fails before anything is waited for: of the only readings in
-- catalogue order, else of the first readings of rates.
def earlyFault? (kinds : List Kind) (ports : List UInt16) (s : Source) : Option Fault :=
  ((Kind.requested kinds).findSome? (stillFault ports s)).or
    ((Kind.requested kinds).findSome? (firstFault (countedBefore kinds) s))

-- The fault of the second reading that fails first, where those of some rates are taken in order.
def lateFault? (order : List Kind) (later : Source) : Option Fault :=
  order.findSome? (secondFault later)

def ratesOf (kinds : List Kind) : List Kind :=
  (Kind.requested kinds).filter Kind.isRate

-- A section of a kind that is there only if the kind is asked for.
def given {α : Type} (kinds : List Kind) (k : Kind) (content : Option α) : Option α :=
  if k ∈ kinds then content else none

-- The snapshot of all kinds asked for, when the second readings come from the `later` source.
def whole (node : String) (timestamp : Timestamp) (kinds : List Kind) (ports : List UInt16)
    (elapsed : Span) (s later : Source) : Snapshot where
  node := node
  timestamp := timestamp
  process := given kinds .process (s.process.ahead 0).value?
  disk := given kinds .disk (s.disks.ahead 0).value?
  sys := given kinds .sys (summaryAhead s)
  sysFile := given kinds .sysFile (s.fileStores.ahead 0).value?
  memory := given kinds .memory (s.runtimeMemory.ahead 0).value?
  thread := given kinds .thread (s.threads.ahead 0).value?
  gc := given kinds .gc (s.gc.ahead 0).value?
  port := given kinds .port ((s.ports ports).ahead 0).value?
  cpu := given kinds .cpu do
    let before ← (s.cpuTicks.ahead 0).value?
    let cpuNum ← (s.cpuCount.ahead (countedBefore kinds)).value?
    let now ← (later.cpuTicks.ahead 0).value?
    return before.usage now cpuNum
  diskIo := given kinds .diskIo do
    let before ← (s.diskCounters.ahead 0).value?
    let now ← (later.diskCounters.ahead 0).value?
    return DiskCounters.rates before now elapsed
  network := given kinds .network do
    let before ← (s.netCounters.ahead 0).value?
    let now ← (later.netCounters.ahead 0).value?
    return NetCounters.rates before now elapsed

-- What the first half of a collection leaves to the second.
def pendingOf (node : String) (timestamp : Timestamp) (kinds : List Kind) (ports : List UInt16)
    (s : Source) : Pending where
  sofar := (Kind.requested kinds).foldl (fillStill ports s) (.empty node timestamp)
  firsts := (Kind.requested kinds).filterMap (firstAhead (countedBefore kinds) s)

def between (kinds : List Kind) (s : Source) : Source :=
  (Kind.requested kinds).foldl Source.pastFirst ((Kind.requested kinds).foldl Source.pastStill s)

variable {node : String} {timestamp : Timestamp} {kinds : List Kind} {ports : List UInt16}
  {elapsed : Span} {s : Source}

theorem neverPanics_between (h : s.NeverPanics) : (between kinds s).NeverPanics :=
  .foldl (fun h k => h.pastFirst k) (.foldl (fun h k => h.pastStill k) h _) _

theorem reads_start (h : s.NeverPanics) :
    Reads (start node timestamp kinds ports) s (earlyFault? kinds ports s)
      (some (pendingOf node timestamp kinds ports s)) (between kinds s) := by
  have hnodup := Kind.nodup_requested kinds
  obtain ⟨hcpu, hdisk, hnet, hcount⟩ := Source.foldl_pastStill hnodup s
  simp only [Kind.mem_requested] at hcount
  have hfault : firstFault 0 ((Kind.requested kinds).foldl Source.pastStill s) =
      firstFault (countedBefore kinds) s := by
    funext k
    cases k <;> simp [firstFault, hcpu, hdisk, hnet, hcount, countedBefore]
  have hahead : firstAhead 0 ((Kind.requested kinds).foldl Source.pastStill s) =
      firstAhead (countedBefore kinds) s := by
    funext k
    cases k <;> simp [firstAhead, hcpu, hdisk, hnet, hcount, countedBefore]
  have hfirst := reads_firstAll hnodup
    (.foldl (fun h k => h.pastStill k) h (Kind.requested kinds))
  rw [hfault, hahead] at hfirst
  refine (reads_stillAll ports hnodup h (.empty node timestamp)).bind fun x hx => ?_
  cases hx
  refine hfirst.map fun fs hfs => ?_
  cases hfs
  rfl

theorem firstAhead_isRate (h : s.NeverPanics) {counted : Nat} {k : Kind}
    (hfault : firstFault counted s k = none) :
    (firstAhead counted s k).map First.kind = if k.isRate then some k else none := by
  cases k with
  | cpu =>
      simp only [firstFault, Option.or_eq_none_iff] at hfault
      obtain ⟨ticks, hticks⟩ := h.cpuTicks.exists_value hfault.1
      obtain ⟨count, hcount⟩ := h.cpuCount.exists_value hfault.2
      simp [firstAhead, hticks, hcount, Ending.value?, First.kind, Kind.isRate]
  | diskIo =>
      obtain ⟨counters, hcounters⟩ := h.diskCounters.exists_value hfault
      simp [firstAhead, hcounters, Ending.value?, First.kind, Kind.isRate]
  | network =>
      obtain ⟨counters, hcounters⟩ := h.netCounters.exists_value hfault
      simp [firstAhead, hcounters, Ending.value?, First.kind, Kind.isRate]
  | _ => rfl

theorem map_kind_firstAhead (h : s.NeverPanics) {counted : Nat} {ks : List Kind}
    (hfault : ks.findSome? (firstFault counted s) = none) :
    (ks.filterMap (firstAhead counted s)).map First.kind = ks.filter Kind.isRate := by
  rw [List.map_filterMap, ← List.filterMap_eq_filter]
  apply List.filterMap_congr
  intro k hk
  rw [firstAhead_isRate h (List.findSome?_eq_none_iff.mp hfault k hk)]
  simp [Option.guard]

theorem sameSection_fillStill {later : Source} {k : Kind} (hk : k ∈ kinds)
    (hstill : k.isRate = false) (x : Snapshot) :
    (fillStill ports s x k).SameSection
      (whole node timestamp kinds ports elapsed s later) k := by
  cases k <;> simp_all [fillStill, Snapshot.SameSection, whole, given, Kind.isRate]

theorem sameSection_fillStill_other {k k' : Kind} (hk : k' ≠ k) (x : Snapshot) :
    (fillStill ports s x k).SameSection x k' := by
  revert hk
  cases k <;> cases k' <;> intro hk <;> first | rfl | exact absurd rfl hk

theorem sameSection_fillSecond {later : Source} {f : First} (hk : f.kind ∈ kinds)
    (hf : firstAhead (countedBefore kinds) s f.kind = some f) (x : Snapshot) :
    (fillSecond elapsed later x f).SameSection
      (whole node timestamp kinds ports elapsed s later) f.kind := by
  cases f with
  | cpu before cpuNum =>
      simp only [First.kind, firstAhead, Option.bind_eq_bind, Option.bind_eq_some_iff,
        Option.pure_def, Option.some.injEq, First.cpu.injEq] at hf
      obtain ⟨ticks, hticks, count, hcount, rfl, rfl⟩ := hf
      have hkind : Kind.cpu ∈ kinds := hk
      simp only [Snapshot.SameSection, fillSecond, whole, given, First.kind, hkind, hticks, hcount,
        if_true]
      exact Option.map_eq_bind
  | diskIo before =>
      simp only [First.kind, firstAhead, Option.map_eq_some_iff, First.diskIo.injEq] at hf
      obtain ⟨counters, hcounters, rfl⟩ := hf
      have hkind : Kind.diskIo ∈ kinds := hk
      simp only [Snapshot.SameSection, fillSecond, whole, given, First.kind, hkind, hcounters,
        if_true]
      exact Option.map_eq_bind
  | network before =>
      simp only [First.kind, firstAhead, Option.map_eq_some_iff, First.network.injEq] at hf
      obtain ⟨counters, hcounters, rfl⟩ := hf
      have hkind : Kind.network ∈ kinds := hk
      simp only [Snapshot.SameSection, fillSecond, whole, given, First.kind, hkind, hcounters,
        if_true]
      exact Option.map_eq_bind

theorem sameSection_fillSecond_other {later : Source} {f : First} {k : Kind} (hk : k ≠ f.kind)
    (x : Snapshot) : (fillSecond elapsed later x f).SameSection x k := by
  revert hk
  cases f <;> cases k <;> intro hk <;> first | rfl | exact absurd rfl hk

theorem kind_eq_of_firstAhead {counted : Nat} {k : Kind} {f : First}
    (hf : firstAhead counted s k = some f) : f.kind = k := by
  cases k with
  | cpu =>
      simp only [firstAhead, Option.bind_eq_bind, Option.bind_eq_some_iff, Option.pure_def,
        Option.some.injEq] at hf
      obtain ⟨_, _, _, _, rfl⟩ := hf
      rfl
  | diskIo | network =>
      obtain ⟨_, _, rfl⟩ := Option.map_eq_some_iff.mp hf
      rfl
  | _ => cases hf

-- The first half fills in the sections of the kinds that need no second reading, and no others.
theorem sameSection_sofar (later : Source) (k : Kind) :
    (pendingOf node timestamp kinds ports s).sofar.SameSection
      (if k ∈ (Kind.requested kinds).filter (!Kind.isRate ·) then
        whole node timestamp kinds ports elapsed s later else .empty node timestamp) k := by
  have hfilter : (pendingOf node timestamp kinds ports s).sofar =
      ((Kind.requested kinds).filter (!Kind.isRate ·)).foldl (fillStill ports s)
        (.empty node timestamp) := by
    rw [List.foldl_filter]
    refine List.foldl_ext _ _ _ fun x k _ => ?_
    cases k <;> rfl
  rw [hfilter]
  have hfill : ∀ k ∈ (Kind.requested kinds).filter (!Kind.isRate ·), ∀ x,
      (fillStill ports s x k).SameSection (whole node timestamp kinds ports elapsed s later) k := by
    intro k hk x
    rw [List.mem_filter, Kind.mem_requested] at hk
    exact sameSection_fillStill hk.1 (by simpa using hk.2) x
  have := Snapshot.sameSection_foldl id hfill
    (fun _ _ x _ hk => sameSection_fillStill_other hk x) (.empty node timestamp) k
  simpa using this

theorem sameSection_empty (later : Source) {k : Kind} (hk : k ∉ kinds) :
    (Snapshot.empty node timestamp).SameSection
      (whole node timestamp kinds ports elapsed s later) k := by
  cases k <;> simp [Snapshot.SameSection, Snapshot.empty, whole, given, hk]

-- Both halves together fill in the whole snapshot, in whatever order the second readings come.
theorem foldl_fillSecond (h : s.NeverPanics) (hearly : earlyFault? kinds ports s = none)
    {order : List First} (horder : order.Perm (pendingOf node timestamp kinds ports s).firsts)
    (later : Source) :
    order.foldl (fillSecond elapsed later) (pendingOf node timestamp kinds ports s).sofar =
      whole node timestamp kinds ports elapsed s later := by
  have hrates : ∀ k, k ∈ order.map First.kind ↔ k ∈ ratesOf kinds := by
    intro k
    rw [(horder.map First.kind).mem_iff]
    exact iff_of_eq (congrArg (k ∈ ·) (map_kind_firstAhead h (Option.or_eq_none_iff.mp hearly).2))
  have hfill : ∀ f ∈ order, ∀ x, (fillSecond elapsed later x f).SameSection
      (whole node timestamp kinds ports elapsed s later) f.kind := by
    intro f hf x
    obtain ⟨k, hk, hahead⟩ := List.mem_filterMap.mp (horder.subset hf)
    cases kind_eq_of_firstAhead hahead
    exact sameSection_fillSecond (Kind.mem_requested.mp hk) hahead x
  apply Snapshot.eq_of_sameSection
  · rw [Snapshot.kept_foldl (·.node) fun x f => by cases f <;> rfl]
    exact Snapshot.kept_foldl (·.node) (fun x k => by cases k <;> rfl) ..
  · rw [Snapshot.kept_foldl (·.timestamp) fun x f => by cases f <;> rfl]
    exact Snapshot.kept_foldl (·.timestamp) (fun x k => by cases k <;> rfl) ..
  intro k
  have hlate := Snapshot.sameSection_foldl First.kind hfill
    (fun _ _ x _ hk => sameSection_fillSecond_other hk x)
    (pendingOf node timestamp kinds ports s).sofar k
  have hsofar : (pendingOf node timestamp kinds ports s).sofar.SameSection
      (if k ∈ (Kind.requested kinds).filter (!Kind.isRate ·) then
        whole node timestamp kinds ports elapsed s later else .empty node timestamp) k :=
    sameSection_sofar later k
  by_cases hrate : k ∈ order.map First.kind
  · rwa [if_pos hrate] at hlate
  rw [if_neg hrate] at hlate
  refine hlate.trans ?_
  by_cases hstill : k ∈ (Kind.requested kinds).filter (!Kind.isRate ·)
  · rwa [if_pos hstill] at hsofar
  rw [if_neg hstill] at hsofar
  refine hsofar.trans (sameSection_empty later fun hk => ?_)
  rw [hrates, ratesOf] at hrate
  simp_all [List.mem_filter, Kind.mem_requested]

theorem map_kind_firsts (h : s.NeverPanics) (hearly : earlyFault? kinds ports s = none) :
    (pendingOf node timestamp kinds ports s).firsts.map First.kind = ratesOf kinds :=
  map_kind_firstAhead h (Option.or_eq_none_iff.mp hearly).2

theorem nodup_ratesOf (kinds : List Kind) : (ratesOf kinds).Nodup :=
  (Kind.nodup_requested kinds).filter _

-- For the rates asked for, the second readings are those after one first reading.
theorem between_feeds (kinds : List Kind) (s : Source) :
    (.cpu ∈ kinds → (between kinds s).cpuTicks = s.ratesRead.cpuTicks) ∧
    (.diskIo ∈ kinds → (between kinds s).diskCounters = s.ratesRead.diskCounters) ∧
    (.network ∈ kinds → (between kinds s).netCounters = s.ratesRead.netCounters) := by
  have hnodup := Kind.nodup_requested kinds
  obtain ⟨hcpu, hdisk, hnet, _⟩ := Source.foldl_pastStill hnodup s
  obtain ⟨hcpu', hdisk', hnet'⟩ :=
    Source.foldl_pastFirst hnodup ((Kind.requested kinds).foldl Source.pastStill s)
  simp only [Kind.mem_requested, hcpu, hdisk, hnet] at hcpu' hdisk' hnet'
  refine ⟨fun hk => ?_, fun hk => ?_, fun hk => ?_⟩
  · rw [if_pos hk] at hcpu'
    exact hcpu'
  · rw [if_pos hk] at hdisk'
    exact hdisk'
  · rw [if_pos hk] at hnet'
    exact hnet'

theorem secondFault_between {k : Kind} (hk : k ∈ kinds) :
    secondFault (between kinds s) k = secondFault s.ratesRead k := by
  obtain ⟨hcpu, hdisk, hnet⟩ := between_feeds kinds s
  cases k with
  | cpu => simp only [secondFault, hcpu hk]
  | diskIo => simp only [secondFault, hdisk hk]
  | network => simp only [secondFault, hnet hk]
  | _ => rfl

theorem lateFault?_between :
    lateFault? (ratesOf kinds) (between kinds s) = lateFault? (ratesOf kinds) s.ratesRead := by
  refine findSome?_congr fun k hk => secondFault_between ?_
  exact Kind.mem_requested.mp (List.mem_of_mem_filter hk)

theorem whole_between :
    whole node timestamp kinds ports elapsed s (between kinds s) =
      whole node timestamp kinds ports elapsed s s.ratesRead := by
  obtain ⟨hcpu, hdisk, hnet⟩ := between_feeds kinds s
  have hgiven : ∀ {α : Type} {k : Kind} {o o' : Option α}, (k ∈ kinds → o = o') →
      given kinds k o = given kinds k o' := by
    intro α k o o' ho
    unfold given
    split
    · exact ho ‹_›
    · rfl
  simp only [whole, Snapshot.mk.injEq, true_and]
  exact ⟨hgiven fun hk => by rw [hcpu hk], hgiven fun hk => by rw [hdisk hk],
    hgiven fun hk => by rw [hnet hk]⟩

-- No fault means that every reading succeeds that a kind asked for needs.
theorem trouble_eq_none_iff :
    (earlyFault? kinds ports s).or (lateFault? (ratesOf kinds) s.ratesRead) = none ↔
      ∀ k ∈ kinds, stillFault ports s k = none ∧ firstFault (countedBefore kinds) s k = none ∧
        secondFault s.ratesRead k = none := by
  have hstill : ∀ k, k.isRate = false → secondFault s.ratesRead k = none := by
    intro k hk
    cases k <;> first | rfl | cases hk
  simp only [earlyFault?, lateFault?, ratesOf, Option.or_eq_none_iff, List.findSome?_eq_none_iff,
    List.mem_filter, Kind.mem_requested]
  constructor
  · rintro ⟨⟨h₁, h₂⟩, h₃⟩ k hk
    refine ⟨h₁ k hk, h₂ k hk, ?_⟩
    cases hrate : k.isRate with
    | true => exact h₃ k ⟨hk, hrate⟩
    | false => exact hstill k hrate
  · intro h
    exact ⟨⟨fun k hk => (h k hk).1, fun k hk => (h k hk).2.1⟩, fun k hk => (h k hk.1).2.2⟩

theorem has_whole (h : s.NeverPanics) {later : Source} (hlater : later.NeverPanics)
    (hgood : ∀ k ∈ kinds, stillFault ports s k = none ∧ firstFault (countedBefore kinds) s k = none ∧
      secondFault later k = none) (k : Kind) :
    (whole node timestamp kinds ports elapsed s later).has k = decide (k ∈ kinds) := by
  by_cases hk : k ∈ kinds
  · obtain ⟨h₁, h₂, h₃⟩ := hgood k hk
    cases k with
    | process => simp [Snapshot.has, whole, given, hk, h.process.isSome_value? h₁]
    | disk => simp [Snapshot.has, whole, given, hk, h.disks.isSome_value? h₁]
    | sys =>
        obtain ⟨hcount, hrest⟩ := Option.or_eq_none_iff.mp h₁
        obtain ⟨hload, hmemory⟩ := Option.or_eq_none_iff.mp hrest
        obtain ⟨count, hcount⟩ := h.cpuCount.exists_value hcount
        obtain ⟨load, hload⟩ := h.loadAverage.exists_value hload
        obtain ⟨memory, hmemory⟩ := h.systemMemory.exists_value hmemory
        simp [Snapshot.has, whole, given, hk, summaryAhead, hcount, hload, hmemory, Ending.value?]
    | sysFile => simp [Snapshot.has, whole, given, hk, h.fileStores.isSome_value? h₁]
    | memory => simp [Snapshot.has, whole, given, hk, h.runtimeMemory.isSome_value? h₁]
    | thread => simp [Snapshot.has, whole, given, hk, h.threads.isSome_value? h₁]
    | gc => simp [Snapshot.has, whole, given, hk, h.gc.isSome_value? h₁]
    | port => simp [Snapshot.has, whole, given, hk, (h.ports ports).isSome_value? h₁]
    | cpu =>
        obtain ⟨hticks, hcount⟩ := Option.or_eq_none_iff.mp h₂
        obtain ⟨ticks, hticks⟩ := h.cpuTicks.exists_value hticks
        obtain ⟨count, hcount⟩ := h.cpuCount.exists_value hcount
        obtain ⟨now, hnow⟩ := hlater.cpuTicks.exists_value h₃
        simp [Snapshot.has, whole, given, hk, hticks, hcount, hnow, Ending.value?]
    | diskIo =>
        obtain ⟨before, hbefore⟩ := h.diskCounters.exists_value h₂
        obtain ⟨now, hnow⟩ := hlater.diskCounters.exists_value h₃
        simp [Snapshot.has, whole, given, hk, hbefore, hnow, Ending.value?]
    | network =>
        obtain ⟨before, hbefore⟩ := h.netCounters.exists_value h₂
        obtain ⟨now, hnow⟩ := hlater.netCounters.exists_value h₃
        simp [Snapshot.has, whole, given, hk, hbefore, hnow, Ending.value?]
  · cases k <;> simp [Snapshot.has, whole, given, hk]

variable {order : List First} {later : Source}

theorem nodup_order (h : s.NeverPanics) (hearly : earlyFault? kinds ports s = none)
    (horder : order.Perm (pendingOf node timestamp kinds ports s).firsts) :
    (order.map First.kind).Nodup := by
  rw [(horder.map First.kind).nodup_iff, map_kind_firsts h hearly]
  exact nodup_ratesOf kinds

-- The second half gives a fault or the whole snapshot, from whatever source and in whatever order
-- the second readings are taken.
theorem finish?_pendingOf (h : s.NeverPanics) (hearly : earlyFault? kinds ports s = none)
    (horder : order.Perm (pendingOf node timestamp kinds ports s).firsts)
    (hlater : later.NeverPanics) :
    (finish? elapsed { pendingOf node timestamp kinds ports s with firsts := order } later).1 =
      some (match lateFault? (order.map First.kind) later with
        | some e => .error e
        | none => .ok (whole node timestamp kinds ports elapsed s later)) := by
  rw [finish?_calls (nodup_order h hearly horder) hlater]
  simp only [lateFault?, List.findSome?_map, foldl_fillSecond h hearly horder later]
  rfl

theorem countP_answers_calls (h : s.NeverPanics) (hearly : earlyFault? kinds ports s = none)
    (horder : order.Perm (pendingOf node timestamp kinds ports s).firsts)
    (hlater : later.NeverPanics) (x : Snapshot) :
    ((Join.expecting (UInt64.ofNat order.length) x).answers
      (.close :: calls elapsed order later)).countP Option.isSome = 1 := by
  have hkinds := nodup_order h hearly horder
  have hlen := Kind.length_le_of_nodup hkinds
  rw [List.length_map] at hlen
  have honce := Join.countP_answers_close (by rw [List.length_map]; omega)
    (isClosing_callOf elapsed later order) x
  rw [List.length_map] at honce
  rw [calls_eq hkinds hlater]
  exact honce

theorem start_eq (h : s.NeverPanics) (hearly : earlyFault? kinds ports s = none) :
    start node timestamp kinds ports s =
      (.value (pendingOf node timestamp kinds ports s), between kinds s) := by
  have hstart : Reads (start node timestamp kinds ports) s (earlyFault? kinds ports s)
      (some (pendingOf node timestamp kinds ports s)) (between kinds s) := reads_start h
  rw [hearly] at hstart
  obtain ⟨p, hp, hvalue⟩ := hstart
  cases hp
  exact hvalue

theorem start_fault (h : s.NeverPanics) {e : Fault} (hearly : earlyFault? kinds ports s = some e) :
    (start node timestamp kinds ports s).1 = .fault e := by
  have hstart : Reads (start node timestamp kinds ports) s (earlyFault? kinds ports s)
      (some (pendingOf node timestamp kinds ports s)) (between kinds s) := reads_start h
  rw [hearly] at hstart
  exact hstart

-- Nothing is waited for when a reading fails before the delay.
theorem run_of_early (delay : Nat) (h : s.NeverPanics) {e : Fault}
    (hearly : earlyFault? kinds ports s = some e) :
    (run node timestamp kinds ports delay s).1 = ⟨.fault e, 0⟩ := by
  have hfault : (start node timestamp kinds ports s).1 = .fault e := start_fault h hearly
  unfold run
  split <;> simp_all

theorem run_of_start (delay : Nat) (h : s.NeverPanics) (hearly : earlyFault? kinds ports s = none) :
    (run node timestamp kinds ports delay s).1 =
      ⟨match lateFault? (ratesOf kinds) s.ratesRead with
        | some e => .fault e
        | none => .value (some (whole node timestamp kinds ports (.ofMillis delay) s s.ratesRead)),
        if (ratesOf kinds).isEmpty then 0 else delay⟩ := by
  have hkinds : (pendingOf node timestamp kinds ports s).firsts.map First.kind = ratesOf kinds :=
    map_kind_firsts h hearly
  have hempty : (pendingOf node timestamp kinds ports s).firsts.isEmpty =
      (ratesOf kinds).isEmpty := by
    rw [← hkinds, List.isEmpty_map]
  have hfinish : (finish? (.ofMillis delay) (pendingOf node timestamp kinds ports s)
      (between kinds s)).1 = some (match lateFault? (ratesOf kinds) s.ratesRead with
        | some e => .error e
        | none => .ok (whole node timestamp kinds ports (.ofMillis delay) s s.ratesRead)) := by
    rw [← lateFault?_between, ← whole_between, ← hkinds]
    exact finish?_pendingOf h hearly (.refl _) (neverPanics_between h)
  simp only [run, start_eq h hearly, hempty]
  cases hlate : lateFault? (ratesOf kinds) s.ratesRead <;> rw [hlate] at hfinish <;>
    split <;> simp_all

-- A collection of any kinds ends once, from a source that gives a value or reports a fault at
-- every reading. It delivers the whole snapshot if every reading succeeds that the kinds need, and
-- otherwise the first fault, of the readings before the delay or else of those after it. It takes
-- the delay exactly if rates are asked for and all readings before it succeed. The second readings
-- may come in any order and from any later source.
theorem run_all_or_nothing (node : String) (timestamp : Timestamp) (kinds : List Kind)
    (ports : List UInt16) (delay : Nat) {s : Source} (h : s.NeverPanics) :
    let r := (run node timestamp kinds ports delay s).1
    let trouble := (earlyFault? kinds ports s).or (lateFault? (ratesOf kinds) s.ratesRead)
    let x := whole node timestamp kinds ports (.ofMillis delay) s s.ratesRead
    r.ending = (match trouble with
      | some e => .fault e
      | none => .value (some x)) ∧
    (trouble = none ↔ ∀ k ∈ kinds, stillFault ports s k = none ∧
      firstFault (countedBefore kinds) s k = none ∧ secondFault s.ratesRead k = none) ∧
    (trouble = none → ∀ k, x.has k = decide (k ∈ kinds)) ∧
    r.took = (if (earlyFault? kinds ports s).isNone && !(ratesOf kinds).isEmpty then delay else 0) ∧
    ∀ p s', start node timestamp kinds ports s = (.value p, s') →
      p.firsts.map First.kind = ratesOf kinds ∧
      ∀ order later, order.Perm p.firsts → later.NeverPanics →
        ((Join.expecting (UInt64.ofNat order.length) p.sofar).answers
          (.close :: calls (.ofMillis delay) order later)).countP Option.isSome = 1 ∧
        (finish? (.ofMillis delay) { p with firsts := order } later).1 =
          some (match lateFault? (order.map First.kind) later with
            | some e => .error e
            | none => .ok (whole node timestamp kinds ports (.ofMillis delay) s later)) := by
  intro r trouble x
  have hgood : trouble = none ↔ ∀ k ∈ kinds, stillFault ports s k = none ∧
      firstFault (countedBefore kinds) s k = none ∧ secondFault s.ratesRead k = none :=
    trouble_eq_none_iff
  refine ⟨?_, hgood, fun ht => has_whole h h.ratesRead (hgood.mp ht), ?_, ?_⟩
  · cases hearly : earlyFault? kinds ports s with
    | some e => simp only [r, trouble, run_of_early delay h hearly, hearly, Option.some_or]
    | none => simp only [r, trouble, run_of_start delay h hearly, hearly, Option.none_or, x]
  · cases hearly : earlyFault? kinds ports s with
    | some e => simp [r, run_of_early delay h hearly]
    | none =>
        simp only [r, run_of_start delay h hearly]
        cases (ratesOf kinds).isEmpty <;> rfl
  · intro p s' hstart
    have hearly : earlyFault? kinds ports s = none := by
      cases hearly : earlyFault? kinds ports s with
      | none => rfl
      | some e =>
          have hfault : (start node timestamp kinds ports s).1 = .fault e := start_fault h hearly
          simp [hstart] at hfault
    rw [start_eq h hearly] at hstart
    cases hstart
    refine ⟨map_kind_firsts h hearly, fun order later horder hlater => ⟨?_, ?_⟩⟩
    · exact countP_answers_calls h hearly horder hlater _
    · exact finish?_pendingOf h hearly horder hlater

-- A made-up host that loses its disks after the first reading, and that says the same of its ports
-- whichever it is asked for.
def losesDisks : Source :=
  { CannedHost.standard.source with
    portStates := fun _ _ => .value [⟨9, true⟩]
    diskCounters := .of fun taken =>
      if taken = 0 then .value [] else .fault (.provider "disks are gone") }

-- With the rates of its disks asked for, the fault comes after the delay; without them, after the
-- same time, there is a snapshot of the three other kinds.
theorem run_all_or_nothing_losesDisks :
    (run "north" .epoch [.diskIo, .cpu, .process] [] 1000 losesDisks).1.ending =
      .fault (.provider "disks are gone") ∧
    (run "north" .epoch [.diskIo, .cpu, .process] [] 1000 losesDisks).1.took = 1000 ∧
    let x := whole "north" .epoch [.cpu, .port, .process, .cpu] [80] (.ofMillis 1000) losesDisks
      losesDisks.ratesRead
    (run "north" .epoch [.cpu, .port, .process, .cpu] [80] 1000 losesDisks).1.ending =
      .value (some x) ∧ x.port = some [⟨9, true⟩] := by
  have hcalm : losesDisks.NeverPanics := by
    refine { CannedHost.neverPanics_source .standard with ports := ?_, diskCounters := ?_ }
    · intro asked n text h
      cases h
    · intro n text h
      simp only [losesDisks, Feed.of] at h
      split at h <;> cases h
  obtain ⟨hending, _, _, htook, _⟩ :=
    run_all_or_nothing "north" .epoch [.diskIo, .cpu, .process] [] 1000 hcalm
  exact ⟨hending, htook,
    (run_all_or_nothing "north" .epoch [.cpu, .port, .process, .cpu] [80] 1000 hcalm).1, rfl⟩

end Collection

end MetricRelay
