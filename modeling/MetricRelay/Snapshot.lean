import MetricRelay.Calendar.Timestamp
import MetricRelay.Reading.Rate

namespace MetricRelay

-- The system at a glance.
structure SystemSummary where
  cpuNum : UInt64
  loadAverage : Float
  memory : SystemMemory

-- What was collected on a node, one section per kind asked for.
structure Snapshot where
  node : String
  timestamp : Timestamp
  process : Option ProcessInfo
  disk : Option (List DiskInfo)
  sys : Option SystemSummary
  sysFile : Option (List FileStore)
  memory : Option RuntimeMemory
  thread : Option ThreadInfo
  gc : Option (List GcInfo)
  port : Option (List PortState)
  cpu : Option CpuUsage
  diskIo : Option (List DiskRate)
  network : Option (List NetRate)

namespace Snapshot

def empty (node : String) (timestamp : Timestamp) : Snapshot :=
  ⟨node, timestamp, none, none, none, none, none, none, none, none, none, none, none⟩

-- The one number that tells most: how busy the processors are, else the load, else zero.
def headline (s : Snapshot) : Float :=
  match s.cpu, s.sys with
  | some usage, _ => usage.busy
  | none, some summary => summary.loadAverage
  | none, none => 0

end Snapshot

end MetricRelay
