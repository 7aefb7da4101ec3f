import MetricRelay.Reading.Source

namespace MetricRelay

-- What a made-up host shows: its ticks between two readings, its load and its ports.
structure CannedHost where
  cpuStep : CpuTicks
  load : LoadAverage
  listening : List UInt16

namespace CannedHost

def mebibytes (n : UInt64) : UInt64 :=
  n * 1048576

def gibibytes (n : UInt64) : UInt64 :=
  n * 1073741824

def standard : CannedHost :=
  ⟨⟨30, 0, 10, 50, 10, 0, 0, 0⟩, ⟨0.5, 0.75⟩, []⟩

def scaled (t : CpuTicks) (n : UInt64) : CpuTicks :=
  ⟨t.user * n, t.nice * n, t.system * n, t.idle * n, t.iowait * n, t.irq * n, t.softirq * n,
    t.steal * n⟩

-- The counters go on by the same amounts from reading to reading.
def source (m : CannedHost) : Source where
  process := .constant ⟨4242, "mock"⟩
  disks := .constant [⟨"sda", gibibytes 256⟩]
  cpuCount := .constant 4
  loadAverage := .constant m.load
  systemMemory := .constant ⟨gibibytes 8, gibibytes 2, gibibytes 4, 0, 0, 0, 0⟩
  fileStores := .constant [⟨"/dev/sda1", "/", "ext4"⟩]
  runtimeMemory := .constant ⟨mebibytes 64, mebibytes 512, mebibytes 600⟩
  threads := .constant ⟨8, 0, 0⟩
  gc := .constant []
  listening := .constant m.listening
  portStates listening asked := .value (PortState.among listening asked)
  cpuTicks := .of fun taken => .value (scaled m.cpuStep (UInt64.ofNat (taken + 1)))
  diskCounters := .of fun taken =>
    let n := UInt64.ofNat (taken + 1)
    .value [⟨"sda", n * 100, n * 51200, n * 100 / 2, n * 25600, 1⟩]
  netCounters := .of fun taken =>
    let n := UInt64.ofNat (taken + 1)
    .value [⟨"eth0", n * 1000, n * 10, n * 1000 / 2, n * 5⟩]

def failure (k : Kind) : Fault :=
  .provider ("mock failure reading " ++ k.name)

end CannedHost

-- Blocks kinds with the fault of a made-up host.
def Source.failing (kinds : List Kind) (s : Source) : Source :=
  kinds.foldl (fun s k => s.block k (CannedHost.failure k)) s

-- How many counters were read.
def Source.counterReads (s : Source) : Nat :=
  s.cpuTicks.taken + s.diskCounters.taken + s.netCounters.taken

end MetricRelay
