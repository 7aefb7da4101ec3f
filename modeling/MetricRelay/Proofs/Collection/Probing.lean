import MetricRelay.Collection.Readings

namespace MetricRelay

namespace Ending

variable {α : Type}

def value? : Ending α → Option α
  | value a => some a
  | _ => none

def fault? : Ending α → Option Fault
  | fault e => some e
  | _ => none

end Ending

namespace Feed

variable {α β : Type}

-- How the reading that comes after so many others will end.
def ahead (f : Feed α) (readings : Nat) : Ending α :=
  match f.blocked with
  | some e => .fault e
  | none => f.replies (f.taken + readings)

def past (f : Feed α) (readings : Nat) : Feed α :=
  match f.blocked with
  | some _ => f
  | none => { f with taken := f.taken + readings }

-- A feed of which no reading breaks off with a panic.
def Calm (f : Feed α) : Prop :=
  ∀ n text, f.replies n ≠ .panic text

theorem next_eq (f : Feed α) : f.next = (f.ahead 0, f.past 1) := by
  cases h : f.blocked <;> simp [next, ahead, past, h]

@[simp] theorem ahead_past (f : Feed α) (m n : Nat) : (f.past m).ahead n = f.ahead (m + n) := by
  cases h : f.blocked <;> simp [ahead, past, h, Nat.add_assoc]

theorem andThen_past (f : Feed α) (next : α → Ending β) (n : Nat) :
    (f.past n).andThen next = (f.andThen next).past n := by
  cases h : f.blocked <;> simp [andThen, past, h]

@[simp] theorem past_zero (f : Feed α) : f.past 0 = f := by
  obtain ⟨replies, taken, blocked⟩ := f
  cases blocked <;> rfl

theorem Calm.past {f : Feed α} (h : f.Calm) (n : Nat) : (f.past n).Calm := by
  unfold Feed.past
  split <;> exact h

theorem Calm.ahead_ne {f : Feed α} (h : f.Calm) (n : Nat) (text : String) :
    f.ahead n ≠ .panic text := by
  unfold ahead
  split
  · nofun
  · exact h _ _

theorem Calm.exists_value {f : Feed α} (h : f.Calm) {n : Nat} (hn : (f.ahead n).fault? = none) :
    ∃ a, f.ahead n = .value a := by
  cases hahead : f.ahead n with
  | value a => exact ⟨a, rfl⟩
  | fault e => simp [hahead, Ending.fault?] at hn
  | panic text => exact absurd hahead (h.ahead_ne n text)

theorem Calm.isSome_value? {f : Feed α} (h : f.Calm) {n : Nat} (hn : (f.ahead n).fault? = none) :
    (f.ahead n).value?.isSome = true := by
  obtain ⟨a, ha⟩ := h.exists_value hn
  rw [ha]
  rfl

end Feed

namespace Source

-- A source of which every reading gives a value or reports a fault.
structure NeverPanics (s : Source) : Prop where
  process : s.process.Calm
  disks : s.disks.Calm
  cpuCount : s.cpuCount.Calm
  loadAverage : s.loadAverage.Calm
  systemMemory : s.systemMemory.Calm
  fileStores : s.fileStores.Calm
  runtimeMemory : s.runtimeMemory.Calm
  threads : s.threads.Calm
  gc : s.gc.Calm
  ports : ∀ asked, (s.ports asked).Calm
  cpuTicks : s.cpuTicks.Calm
  diskCounters : s.diskCounters.Calm
  netCounters : s.netCounters.Calm

-- The source after the only reading for a kind, or after the first of two, or after the second.
def pastStill (s : Source) : Kind → Source
  | .process => { s with process := s.process.past 1 }
  | .disk => { s with disks := s.disks.past 1 }
  | .sys =>
    { s with
      cpuCount := s.cpuCount.past 1
      loadAverage := s.loadAverage.past 1
      systemMemory := s.systemMemory.past 1 }
  | .sysFile => { s with fileStores := s.fileStores.past 1 }
  | .memory => { s with runtimeMemory := s.runtimeMemory.past 1 }
  | .thread => { s with threads := s.threads.past 1 }
  | .gc => { s with gc := s.gc.past 1 }
  | .port => { s with listening := s.listening.past 1 }
  | .cpu | .diskIo | .network => s

def pastFirst (s : Source) : Kind → Source
  | .cpu => { s with cpuTicks := s.cpuTicks.past 1, cpuCount := s.cpuCount.past 1 }
  | .diskIo => { s with diskCounters := s.diskCounters.past 1 }
  | .network => { s with netCounters := s.netCounters.past 1 }
  | _ => s

def pastSecond (s : Source) : Kind → Source
  | .cpu => { s with cpuTicks := s.cpuTicks.past 1 }
  | .diskIo => { s with diskCounters := s.diskCounters.past 1 }
  | .network => { s with netCounters := s.netCounters.past 1 }
  | _ => s

@[simp] theorem ports_past (s : Source) (n : Nat) (asked : List UInt16) :
    { s with listening := s.listening.past n }.ports asked = (s.ports asked).past n := by
  simp only [ports, Feed.andThen_past]

theorem NeverPanics.pastStill {s : Source} (h : s.NeverPanics) (k : Kind) :
    (s.pastStill k).NeverPanics := by
  cases k with
  | process => exact { h with process := h.process.past 1 }
  | disk => exact { h with disks := h.disks.past 1 }
  | sys =>
      exact { h with
        cpuCount := h.cpuCount.past 1
        loadAverage := h.loadAverage.past 1
        systemMemory := h.systemMemory.past 1 }
  | sysFile => exact { h with fileStores := h.fileStores.past 1 }
  | memory => exact { h with runtimeMemory := h.runtimeMemory.past 1 }
  | thread => exact { h with threads := h.threads.past 1 }
  | gc => exact { h with gc := h.gc.past 1 }
  | port =>
      refine { h with ports := fun asked => ?_ }
      rw [Source.pastStill, ports_past]
      exact (h.ports asked).past 1
  | cpu | diskIo | network => exact h

theorem NeverPanics.pastFirst {s : Source} (h : s.NeverPanics) (k : Kind) :
    (s.pastFirst k).NeverPanics := by
  cases k with
  | cpu => exact { h with cpuTicks := h.cpuTicks.past 1, cpuCount := h.cpuCount.past 1 }
  | diskIo => exact { h with diskCounters := h.diskCounters.past 1 }
  | network => exact { h with netCounters := h.netCounters.past 1 }
  | _ => exact h

theorem NeverPanics.pastSecond {s : Source} (h : s.NeverPanics) (k : Kind) :
    (s.pastSecond k).NeverPanics := by
  cases k with
  | cpu => exact { h with cpuTicks := h.cpuTicks.past 1 }
  | diskIo => exact { h with diskCounters := h.diskCounters.past 1 }
  | network => exact { h with netCounters := h.netCounters.past 1 }
  | _ => exact h

end Source

namespace Probe

variable {α β : Type} {s s' s'' : Source}

-- What a probe does at a source: it ends with the fault, if there is one, and otherwise with the
-- value, leaving the other source.
def Reads (p : Probe α) (s : Source) (trouble : Option Fault) (result : Option α)
    (s' : Source) : Prop :=
  match trouble with
  | some e => (p s).1 = .fault e
  | none => ∃ a, result = some a ∧ p s = (.value a, s')

theorem Reads.pure (a : α) : Reads (Pure.pure a : Probe α) s none (some a) s :=
  ⟨a, rfl, rfl⟩

theorem Reads.bind {p : Probe α} {next : α → Probe β} {t t' : Option Fault} {o : Option α}
    {o' : Option β} (h : Reads p s t o s')
    (hnext : ∀ a, o = some a → Reads (next a) s' t' o' s'') :
    Reads (p >>= next) s (t.or t') o' s'' := by
  cases t with
  | some e =>
      have hp : (p s).1 = .fault e := h
      show (andThen p next s).1 = .fault e
      unfold andThen
      split <;> simp_all
  | none =>
      obtain ⟨a, ha, hp⟩ := h
      have hbind : (p >>= next) s = next a s' := by
        show andThen p next s = next a s'
        simp [andThen, hp]
      have := hnext a ha
      unfold Reads at this ⊢
      rw [Option.none_or, hbind]
      exact this

theorem Reads.map {p : Probe α} {f : α → β} {t : Option Fault} {o : Option α} {o' : Option β}
    (h : Reads p s t o s') (hf : ∀ a, o = some a → o' = some (f a)) :
    Reads (p >>= fun a => Pure.pure (f a)) s t o' s' := by
  have hnext : ∀ a, o = some a → Reads (Pure.pure (f a) : Probe β) s' none o' s' := by
    intro a ha
    rw [hf a ha]
    exact .pure (f a)
  simpa using h.bind hnext

theorem Reads.ofFeed {get : Source → Feed α} {put : Source → Feed α → Source}
    (h : (get s).Calm) :
    Reads (Probe.ofFeed get put) s ((get s).ahead 0).fault? ((get s).ahead 0).value?
      (put s ((get s).past 1)) := by
  have hnext := (get s).next_eq
  cases hahead : (get s).ahead 0 with
  | value a => exact ⟨a, rfl, by simp [Probe.ofFeed, hnext, hahead]⟩
  | fault e => simp [Reads, Ending.fault?, Probe.ofFeed, hnext, hahead]
  | panic text => exact absurd hahead (h.ahead_ne 0 text)

-- A single reading whose value is only changed afterwards, with what it leaves of the source.
theorem ofFeed_bind {get : Source → Feed α} {put : Source → Feed α → Source} {f : α → β} {b : β}
    (h : (get s).Calm) (hf : ∀ a, ((get s).ahead 0).value? = some a → f a = b) :
    (Probe.ofFeed get put >>= fun a => Pure.pure (f a)) s =
      (match ((get s).ahead 0).fault? with
        | some e => .fault e
        | none => .value b, put s ((get s).past 1)) := by
  show andThen (Probe.ofFeed get put) (fun a => give (f a)) s = _
  have hnext := (get s).next_eq
  cases hahead : (get s).ahead 0 with
  | value a =>
      have := hf a (by rw [hahead]; rfl)
      simp [andThen, give, Probe.ofFeed, hnext, hahead, Ending.fault?, this]
  | fault e => simp [andThen, Probe.ofFeed, hnext, hahead, Ending.fault?]
  | panic text => exact absurd hahead (h.ahead_ne 0 text)

end Probe

namespace Collection

open Probe

-- The fault of the reading that a kind needs, of the first that fails where it needs several.
def stillFault (ports : List UInt16) (s : Source) : Kind → Option Fault
  | .process => (s.process.ahead 0).fault?
  | .disk => (s.disks.ahead 0).fault?
  | .sys => (s.cpuCount.ahead 0).fault?.or
      ((s.loadAverage.ahead 0).fault?.or (s.systemMemory.ahead 0).fault?)
  | .sysFile => (s.fileStores.ahead 0).fault?
  | .memory => (s.runtimeMemory.ahead 0).fault?
  | .thread => (s.threads.ahead 0).fault?
  | .gc => (s.gc.ahead 0).fault?
  | .port => ((s.ports ports).ahead 0).fault?
  | .cpu | .diskIo | .network => none

-- The same for the first readings of rates, where the processors were counted so often before.
def firstFault (counted : Nat) (s : Source) : Kind → Option Fault
  | .cpu => (s.cpuTicks.ahead 0).fault?.or (s.cpuCount.ahead counted).fault?
  | .diskIo => (s.diskCounters.ahead 0).fault?
  | .network => (s.netCounters.ahead 0).fault?
  | _ => none

def secondFault (s : Source) : Kind → Option Fault
  | .cpu => (s.cpuTicks.ahead 0).fault?
  | .diskIo => (s.diskCounters.ahead 0).fault?
  | .network => (s.netCounters.ahead 0).fault?
  | _ => none

-- What the source tells next of the whole system. The load is the present one where it is known.
def summaryAhead (s : Source) : Option SystemSummary := do
  let count ← (s.cpuCount.ahead 0).value?
  let load ← (s.loadAverage.ahead 0).value?
  let memory ← (s.systemMemory.ahead 0).value?
  return ⟨count, if 0 ≤ load.instant then load.instant else load.oneMinute, memory⟩

-- A snapshot with the section of a kind as the source gives it next.
def fillStill (ports : List UInt16) (s : Source) (x : Snapshot) : Kind → Snapshot
  | .process => { x with process := (s.process.ahead 0).value? }
  | .disk => { x with disk := (s.disks.ahead 0).value? }
  | .sys => { x with sys := summaryAhead s }
  | .sysFile => { x with sysFile := (s.fileStores.ahead 0).value? }
  | .memory => { x with memory := (s.runtimeMemory.ahead 0).value? }
  | .thread => { x with thread := (s.threads.ahead 0).value? }
  | .gc => { x with gc := (s.gc.ahead 0).value? }
  | .port => { x with port := ((s.ports ports).ahead 0).value? }
  | .cpu | .diskIo | .network => x

-- The first reading of a rate that the source gives next.
def firstAhead (counted : Nat) (s : Source) : Kind → Option First
  | .cpu => do
    let ticks ← (s.cpuTicks.ahead 0).value?
    return .cpu ticks (← (s.cpuCount.ahead counted).value?)
  | .diskIo => (s.diskCounters.ahead 0).value?.map .diskIo
  | .network => (s.netCounters.ahead 0).value?.map .network
  | _ => none

def First.kind : First → Kind
  | .cpu .. => .cpu
  | .diskIo _ => .diskIo
  | .network _ => .network

-- A snapshot with the section of a rate between its first reading and what the source gives next.
def fillSecond (elapsed : Span) (s : Source) (x : Snapshot) : First → Snapshot
  | .cpu before cpuNum => { x with cpu := (s.cpuTicks.ahead 0).value?.map (before.usage · cpuNum) }
  | .diskIo before =>
    { x with diskIo := (s.diskCounters.ahead 0).value?.map (DiskCounters.rates before · elapsed) }
  | .network before =>
    { x with network := (s.netCounters.ahead 0).value?.map (NetCounters.rates before · elapsed) }

variable {s : Source}

theorem reads_still (h : s.NeverPanics) (ports : List UInt16) (x : Snapshot) (k : Kind) :
    Reads (still ports x k) s (stillFault ports s k) (some (fillStill ports s x k))
      (s.pastStill k) := by
  cases k with
  | process => exact (Reads.ofFeed h.process).map fun a ha => by simp [fillStill, ha]
  | disk => exact (Reads.ofFeed h.disks).map fun a ha => by simp [fillStill, ha]
  | sys =>
      refine Reads.bind (Reads.ofFeed h.cpuCount) fun count hcount => ?_
      refine Reads.bind (Reads.ofFeed ?_) fun load hload => ?_
      · exact h.loadAverage
      · refine Reads.map (Reads.ofFeed ?_) fun memory hmemory => ?_
        · exact h.systemMemory
        · have heffective : load.effective =
              if 0 ≤ load.instant then load.instant else load.oneMinute := by
            split
            · rename_i hknown
              exact load.effective_of_known hknown
            · rename_i hunknown
              exact load.effective_of_unknown hunknown
          simp [fillStill, summaryAhead, hcount, hload, hmemory, heffective]
  | sysFile => exact (Reads.ofFeed h.fileStores).map fun a ha => by simp [fillStill, ha]
  | memory => exact (Reads.ofFeed h.runtimeMemory).map fun a ha => by simp [fillStill, ha]
  | thread => exact (Reads.ofFeed h.threads).map fun a ha => by simp [fillStill, ha]
  | gc => exact (Reads.ofFeed h.gc).map fun a ha => by simp [fillStill, ha]
  | port =>
      have hports : Reads (Probe.portStates ports) s ((s.ports ports).ahead 0).fault?
          ((s.ports ports).ahead 0).value? (s.pastStill .port) := by
        have hnext : s.pastStill .port = { s with listening := s.listening.next.2 } := by
          rw [Source.pastStill, Feed.next_eq]
        rw [hnext]
        exact Reads.ofFeed (h.ports ports)
      exact hports.map fun a ha => by simp [fillStill, ha]
  | cpu | diskIo | network => exact .pure x

theorem reads_first (h : s.NeverPanics) (k : Kind) :
    Reads (first k) s (firstFault 0 s k) (some (firstAhead 0 s k)) (s.pastFirst k) := by
  cases k with
  | cpu =>
      refine Reads.bind (Reads.ofFeed h.cpuTicks) fun ticks hticks => ?_
      refine Reads.map (Reads.ofFeed ?_) fun count hcount => ?_
      · exact h.cpuCount
      · simp [firstAhead, hticks, hcount]
  | diskIo => exact (Reads.ofFeed h.diskCounters).map fun a ha => by simp [firstAhead, ha]
  | network => exact (Reads.ofFeed h.netCounters).map fun a ha => by simp [firstAhead, ha]
  | _ => exact .pure none

theorem second_eq (h : s.NeverPanics) (elapsed : Span) (f : First) :
    second elapsed f s =
      (match secondFault s f.kind with
        | some e => .fault e
        | none => .value fun x => fillSecond elapsed s x f, s.pastSecond f.kind) := by
  cases f with
  | cpu before cpuNum => exact ofFeed_bind h.cpuTicks fun a ha => by simp [fillSecond, ha]
  | diskIo before => exact ofFeed_bind h.diskCounters fun a ha => by simp [fillSecond, ha]
  | network before => exact ofFeed_bind h.netCounters fun a ha => by simp [fillSecond, ha]

end Collection

end MetricRelay
