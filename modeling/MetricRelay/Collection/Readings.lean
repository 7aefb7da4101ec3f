import MetricRelay.Collection.Join
import MetricRelay.Reading.Source
import MetricRelay.Snapshot

namespace MetricRelay.Collection

-- Fills the section of a kind that one reading gives. A rate has no such reading.
def still (ports : List UInt16) (s : Snapshot) : Kind → Probe Snapshot
  | .process => do return { s with process := some (← Probe.process) }
  | .disk => do return { s with disk := some (← Probe.disks) }
  | .sys => do
    let count ← Probe.cpuCount
    let load ← Probe.loadAverage
    let memory ← Probe.systemMemory
    return { s with sys := some ⟨count, load.effective, memory⟩ }
  | .sysFile => do return { s with sysFile := some (← Probe.fileStores) }
  | .memory => do return { s with memory := some (← Probe.runtimeMemory) }
  | .thread => do return { s with thread := some (← Probe.threads) }
  | .gc => do return { s with gc := some (← Probe.gc) }
  | .port => do return { s with port := some (← Probe.portStates ports) }
  | .cpu | .diskIo | .network => return s

-- The first of the two readings of a rate.
inductive First where
  | cpu (ticks : CpuTicks) (cpuNum : UInt64)
  | diskIo (counters : List DiskCounters)
  | network (counters : List NetCounters)

-- The first reading for a kind, if it is a rate.
def first : Kind → Probe (Option First)
  | .cpu => do
    let ticks ← Probe.cpuTicks
    return some (.cpu ticks (← Probe.cpuCount))
  | .diskIo => do return some (.diskIo (← Probe.diskCounters))
  | .network => do return some (.network (← Probe.netCounters))
  | _ => return none

-- The second reading of a rate, and how the rate between the two fills its section.
def second (elapsed : Span) : First → Probe (Snapshot → Snapshot)
  | .cpu before cpuNum => do
    let now ← Probe.cpuTicks
    return fun s => { s with cpu := some (before.usage now cpuNum) }
  | .diskIo before => do
    let now ← Probe.diskCounters
    return fun s => { s with diskIo := some (DiskCounters.rates before now elapsed) }
  | .network before => do
    let now ← Probe.netCounters
    return fun s => { s with network := some (NetCounters.rates before now elapsed) }

-- The sections of all kinds in the list that one reading gives, in order.
def stillAll (ports : List UInt16) : List Kind → Snapshot → Probe Snapshot
  | [], s => return s
  | k :: ks, s => do stillAll ports ks (← still ports s k)

-- The first readings for all rates in the list, in order.
def firstAll : List Kind → Probe (List First)
  | [] => return []
  | k :: ks => do
    let f ← first k
    return f.toList ++ (← firstAll ks)

-- A collection between its two halves: the sections that are complete, and the rates that wait
-- for their second reading.
structure Pending where
  sofar : Snapshot
  firsts : List First

-- The first half of a collection of some kinds: all that needs no second reading, then the first
-- readings of the rates.
def start (node : String) (timestamp : Timestamp) (kinds : List Kind) (ports : List UInt16) :
    Probe Pending := do
  let wanted := Kind.requested kinds
  let s ← stillAll ports wanted (.empty node timestamp)
  return ⟨s, ← firstAll wanted⟩

-- Takes the second readings in order, all of them however the others end, and gives what they
-- contribute to the join. The first delivery stands.
def contributions (elapsed : Span) :
    List First → Join Snapshot → Source → Option (Join.Delivery Snapshot) × Source
  | [], _, s => (none, s)
  | f :: fs, j, s =>
    let (delivery, j', s') := match second elapsed f s with
      | (.value section_, s') => let r := j.complete section_; (r.1, r.2, s')
      | (.fault e, s') => let r := j.fail e; (r.1, r.2, s')
      | (.panic _, s') => (none, j, s')
    let rest := contributions elapsed fs j' s'
    (delivery.or rest.1, rest.2)

-- The second half of a collection. It has no result if a second reading panics and no other
-- fails.
def finish? (elapsed : Span) (p : Pending) (s : Source) :
    Option (Join.Delivery Snapshot) × Source :=
  let r := (Join.expecting (UInt64.ofNat p.firsts.length) p.sofar).close
  match r.1 with
  | some d => (some d, s)
  | none => contributions elapsed p.firsts r.2 s

def undelivered : Fault :=
  .sampling "collection ended without delivering a snapshot"

-- The second half, with a fault where there is no result.
def finish (elapsed : Span) (p : Pending) (s : Source) : Except Fault Snapshot × Source :=
  let r := finish? elapsed p s
  (r.1.getD (.error undelivered), r.2)

-- How a whole collection goes: the snapshot that it delivers, none if nothing is ever delivered,
-- and after how many milliseconds it is over.
structure Run where
  ending : Ending (Option Snapshot)
  took : Nat

-- Makes a collection whose second readings come `delay` milliseconds after the first. Nothing is
-- waited for when there are no rates or a first reading fails.
def run (node : String) (timestamp : Timestamp) (kinds : List Kind) (ports : List UInt16)
    (delay : Nat) (s : Source) : Run × Source :=
  match start node timestamp kinds ports s with
  | (.fault e, s') => (⟨.fault e, 0⟩, s')
  | (.panic t, s') => (⟨.panic t, 0⟩, s')
  | (.value p, s') =>
    let took := if p.firsts.isEmpty then 0 else delay
    match finish? (Span.ofMillis delay) p s' with
    | (some (.ok snapshot), s'') => (⟨.value (some snapshot), took⟩, s'')
    | (some (.error e), s'') => (⟨.fault e, took⟩, s'')
    | (none, s'') => (⟨.value none, took⟩, s'')

end MetricRelay.Collection
