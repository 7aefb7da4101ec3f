import MetricRelay.Clock
import MetricRelay.Reading.Basic

namespace MetricRelay

-- Shares of the processors' time between two readings.
structure CpuUsage where
  cpuNum : UInt64
  sys : Float
  user : Float
  ioWait : Float
  idle : Float

-- What a block device did per second between two readings.
structure DiskRate where
  name : String
  queueLength : UInt64
  readPerSecond : Float
  readBytesPerSecond : Float
  writePerSecond : Float
  writeBytesPerSecond : Float

-- What went through a network interface, in total and per second between two readings.
structure NetRate where
  name : String
  recvBytes : UInt64
  recvCount : UInt64
  sentBytes : UInt64
  sentCount : UInt64
  recvBytesPerSecond : Float
  sentBytesPerSecond : Float

namespace Rate

-- How far a counter went. A counter that was set back counts as one that stood still.
def counterDelta (before after : UInt64) : UInt64 :=
  if before ≤ after then after - before else 0

-- A change per second. Where no time passed, the change itself.
def perSecond (delta : UInt64) (elapsed : Span) : Float :=
  if 0 < elapsed.inSeconds then delta.toFloat / elapsed.inSeconds else delta.toFloat

-- The sum, or the largest word if the sum is larger.
def cappedAdd (a b : UInt64) : UInt64 :=
  if a.toNat + b.toNat < UInt64.size then a + b else UInt64.ofNat (UInt64.size - 1)

end Rate

open Rate

namespace CpuTicks

def total (t : CpuTicks) : UInt64 :=
  [t.nice, t.system, t.idle, t.iowait, t.irq, t.softirq, t.steal].foldl cappedAdd t.user

def delta (before after : CpuTicks) : CpuTicks where
  user := counterDelta before.user after.user
  nice := counterDelta before.nice after.nice
  system := counterDelta before.system after.system
  idle := counterDelta before.idle after.idle
  iowait := counterDelta before.iowait after.iowait
  irq := counterDelta before.irq after.irq
  softirq := counterDelta before.softirq after.softirq
  steal := counterDelta before.steal after.steal

-- What the shares are shares of. Where no time was counted it is one tick, so that every share
-- is zero.
def window (t : CpuTicks) : UInt64 :=
  if t.total = 0 then 1 else t.total

def usage (before after : CpuTicks) (cpuNum : UInt64) : CpuUsage :=
  let d := before.delta after
  let share := fun (part : UInt64) => part.toFloat / d.window.toFloat
  ⟨cpuNum, share d.system, share d.user, share d.iowait, share d.idle⟩

end CpuTicks

-- The share of time that was not idle, kept between zero and one.
def CpuUsage.busy (u : CpuUsage) : Float :=
  let b := 1 - u.idle
  if b < 0 then 0 else if 1 < b then 1 else b

-- The last of the readings that bears the name.
def lastNamed? {α : Type} (nameOf : α → String) (name : String) (readings : List α) : Option α :=
  readings.reverse.find? fun r => nameOf r == name

-- A device name as it is reported, without backslashes and dots.
def plainName (name : String) : String :=
  String.ofList (name.toList.filter fun c => c ≠ '\\' && c ≠ '.')

namespace DiskCounters

def rate (before after : DiskCounters) (elapsed : Span) : DiskRate where
  name := plainName after.name
  queueLength := after.queueLength
  readPerSecond := perSecond (counterDelta before.reads after.reads) elapsed
  readBytesPerSecond := perSecond (counterDelta before.readBytes after.readBytes) elapsed
  writePerSecond := perSecond (counterDelta before.writes after.writes) elapsed
  writeBytesPerSecond := perSecond (counterDelta before.writeBytes after.writeBytes) elapsed

-- One rate for every device of the later reading that the earlier one has too.
def rates (before after : List DiskCounters) (elapsed : Span) : List DiskRate :=
  after.filterMap fun now =>
    (lastNamed? DiskCounters.name now.name before).map fun past => past.rate now elapsed

end DiskCounters

namespace NetCounters

def rate (before after : NetCounters) (elapsed : Span) : NetRate where
  name := after.name
  recvBytes := after.recvBytes
  recvCount := after.recvPackets
  sentBytes := after.sentBytes
  sentCount := after.sentPackets
  recvBytesPerSecond := perSecond (counterDelta before.recvBytes after.recvBytes) elapsed
  sentBytesPerSecond := perSecond (counterDelta before.sentBytes after.sentBytes) elapsed

-- One rate for every interface of the later reading that the earlier one has too.
def rates (before after : List NetCounters) (elapsed : Span) : List NetRate :=
  after.filterMap fun now =>
    (lastNamed? NetCounters.name now.name before).map fun past => past.rate now elapsed

end NetCounters

end MetricRelay
