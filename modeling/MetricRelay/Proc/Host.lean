import MetricRelay.Files
import MetricRelay.Proc.Devices
import MetricRelay.Reading.Source

namespace MetricRelay

-- A host that shows its state as files: where they are, what they hold, and the number of this
-- process.
structure Host where
  root : String
  files : Files
  pid : UInt32

namespace Host

-- What comes between the root and a path below it: nothing after an empty root, or after one that
-- ends in a separator.
def separator (h : Host) : String :=
  if h.root.toList.getLast? ∈ [none, some '/'] then "" else "/"

def read (h : Host) (path : String) : Except Fault String :=
  match h.files.readText path with
  | .ok text => .ok text
  | .error f =>
    .error (.provider ("reading " ++ h.root ++ h.separator ++ path ++ ": " ++ f.message))

def cpuTicks (h : Host) : Except Fault CpuTicks := do
  Proc.cpuTicks (← h.read "stat")

def cpuCount (h : Host) : Except Fault UInt64 := do
  Proc.cpuCount (← h.read "stat")

def diskCounters (h : Host) : Except Fault (List DiskCounters) := do
  return Proc.diskCounters (← h.read "diskstats")

def netCounters (h : Host) : Except Fault (List NetCounters) := do
  return Proc.netCounters (← h.read "net/dev")

def loadAverage (h : Host) : Except Fault LoadAverage := do
  Proc.loadAverage (← h.read "loadavg")

def systemMemory (h : Host) : Except Fault SystemMemory := do
  return Proc.systemMemory (← h.read "meminfo")

def disks (h : Host) : Except Fault (List DiskInfo) := do
  return Proc.disks (← h.read "partitions")

def fileStores (h : Host) : Except Fault (List FileStore) := do
  return Proc.fileStores (← h.read "mounts")

def process (h : Host) : Except Fault ProcessInfo := do
  return ⟨h.pid, Text.trimmed (← h.read "self/comm")⟩

def runtimeMemory (h : Host) : Except Fault RuntimeMemory := do
  return Proc.runtimeMemory (← h.read "self/status")

def threads (h : Host) : Except Fault ThreadInfo := do
  Proc.threads (← h.read "self/status")

-- The ports that are listened on. A host may lack the second table.
def listening (h : Host) : Except Fault (List UInt16) := do
  let tcp ← h.read "net/tcp"
  return Proc.listeningPorts tcp ++
    match h.read "net/tcp6" with
    | .ok tcp6 => Proc.listeningPorts tcp6
    | .error _ => []

-- Readings of a host that changes; `hosts n` is how readings with the number `n` find it.
def source (hosts : Nat → Host) : Source where
  process := .of fun n => .ofExcept (hosts n).process
  disks := .of fun n => .ofExcept (hosts n).disks
  cpuCount := .of fun n => .ofExcept (hosts n).cpuCount
  loadAverage := .of fun n => .ofExcept (hosts n).loadAverage
  systemMemory := .of fun n => .ofExcept (hosts n).systemMemory
  fileStores := .of fun n => .ofExcept (hosts n).fileStores
  runtimeMemory := .of fun n => .ofExcept (hosts n).runtimeMemory
  threads := .of fun n => .ofExcept (hosts n).threads
  gc := .constant []
  listening := .of fun n => .ofExcept (hosts n).listening
  portStates listening asked := .value (PortState.among listening asked)
  cpuTicks := .of fun n => .ofExcept (hosts n).cpuTicks
  diskCounters := .of fun n => .ofExcept (hosts n).diskCounters
  netCounters := .of fun n => .ofExcept (hosts n).netCounters

end Host

end MetricRelay
