namespace MetricRelay

-- Time that the processors spent since the start, by what they did, in ticks.
structure CpuTicks where
  user : UInt64
  nice : UInt64
  system : UInt64
  idle : UInt64
  iowait : UInt64
  irq : UInt64
  softirq : UInt64
  steal : UInt64
deriving DecidableEq

-- What a block device did since the start, and how many requests it is busy with.
structure DiskCounters where
  name : String
  reads : UInt64
  readBytes : UInt64
  writes : UInt64
  writeBytes : UInt64
  queueLength : UInt64
deriving DecidableEq

-- What went through a network interface since the start.
structure NetCounters where
  name : String
  recvBytes : UInt64
  recvPackets : UInt64
  sentBytes : UInt64
  sentPackets : UInt64
deriving DecidableEq

-- The load right now, where the system knows it, and its average over a minute.
structure LoadAverage where
  instant : Float
  oneMinute : Float

-- The load to report. A negative number, and what is no number, says that the present load is
-- not known.
def LoadAverage.effective (l : LoadAverage) : Float :=
  if 0 ≤ l.instant then l.instant else l.oneMinute

theorem LoadAverage.effective_of_known {l : LoadAverage} (h : 0 ≤ l.instant) :
    l.effective = l.instant := if_pos h

theorem LoadAverage.effective_of_unknown {l : LoadAverage} (h : ¬0 ≤ l.instant) :
    l.effective = l.oneMinute := if_neg h

-- Bytes of memory of the whole system.
structure SystemMemory where
  total : UInt64
  free : UInt64
  available : UInt64
  buffers : UInt64
  cached : UInt64
  swapTotal : UInt64
  swapFree : UInt64
deriving DecidableEq

def SystemMemory.zero : SystemMemory :=
  ⟨0, 0, 0, 0, 0, 0, 0⟩

structure DiskInfo where
  name : String
  sizeBytes : UInt64
deriving DecidableEq

structure FileStore where
  name : String
  mount : String
  fsType : String
deriving DecidableEq

structure ProcessInfo where
  pid : UInt32
  name : String
deriving DecidableEq

-- Bytes of memory of this process.
structure RuntimeMemory where
  rssBytes : UInt64
  virtualBytes : UInt64
  peakVirtualBytes : UInt64
deriving DecidableEq

-- Threads of this process and how often they gave up a processor, willingly and not.
structure ThreadInfo where
  count : UInt64
  voluntarySwitches : UInt64
  involuntarySwitches : UInt64
deriving DecidableEq

structure GcInfo where
  name : String
  collections : UInt64
  timeMs : UInt64
deriving DecidableEq

structure PortState where
  port : UInt16
  listening : Bool
deriving DecidableEq

-- The state of every port asked for, in the order asked, from the ports that are listened on.
def PortState.among (listening asked : List UInt16) : List PortState :=
  asked.map fun p => ⟨p, listening.contains p⟩

end MetricRelay
