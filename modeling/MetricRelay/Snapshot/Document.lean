import MetricRelay.Snapshot
import MetricRelay.Tree

namespace MetricRelay

open MetricRelay.Tree

namespace ProcessInfo

def toTree (p : ProcessInfo) : Tree :=
  .table [("pid", .ofUInt32 p.pid), ("name", .text p.name)]

def ofTree? (d : Dialect) (t : Tree) : Option ProcessInfo := do
  match ← t.fields? d ["pid", "name"] with
  | [pid, name] =>
    some ⟨← required uint32? pid, ← required text? name⟩
  | _ => none

end ProcessInfo

namespace DiskInfo

def toTree (d : DiskInfo) : Tree :=
  .table [("name", .text d.name), ("size_bytes", .ofUInt64 d.sizeBytes)]

def ofTree? (d : Dialect) (t : Tree) : Option DiskInfo := do
  match ← t.fields? d ["name", "size_bytes"] with
  | [name, sizeBytes] =>
    some ⟨← required text? name, ← required uint64? sizeBytes⟩
  | _ => none

end DiskInfo

namespace SystemMemory

def toTree (m : SystemMemory) : Tree :=
  .table [("total", .ofUInt64 m.total), ("free", .ofUInt64 m.free),
    ("available", .ofUInt64 m.available), ("buffers", .ofUInt64 m.buffers),
    ("cached", .ofUInt64 m.cached), ("swap_total", .ofUInt64 m.swapTotal),
    ("swap_free", .ofUInt64 m.swapFree)]

def ofTree? (d : Dialect) (t : Tree) : Option SystemMemory := do
  match ← t.fields? d ["total", "free", "available", "buffers", "cached", "swap_total",
      "swap_free"] with
  | [total, free, available, buffers, cached, swapTotal, swapFree] =>
    some ⟨← required uint64? total, ← required uint64? free, ← required uint64? available,
      ← required uint64? buffers, ← required uint64? cached, ← required uint64? swapTotal,
      ← required uint64? swapFree⟩
  | _ => none

end SystemMemory

namespace SystemSummary

def toTree (s : SystemSummary) : Tree :=
  .table [("cpu_num", .ofUInt64 s.cpuNum), ("load_average", .ofReal s.loadAverage),
    ("memory", s.memory.toTree)]

def ofTree? (d : Dialect) (t : Tree) : Option SystemSummary := do
  match ← t.fields? d ["cpu_num", "load_average", "memory"] with
  | [cpuNum, loadAverage, memory] =>
    some ⟨← required uint64? cpuNum, ← required real? loadAverage,
      ← required (SystemMemory.ofTree? d) memory⟩
  | _ => none

end SystemSummary

namespace FileStore

def toTree (f : FileStore) : Tree :=
  .table [("name", .text f.name), ("mount", .text f.mount), ("fs_type", .text f.fsType)]

def ofTree? (d : Dialect) (t : Tree) : Option FileStore := do
  match ← t.fields? d ["name", "mount", "fs_type"] with
  | [name, mount, fsType] =>
    some ⟨← required text? name, ← required text? mount, ← required text? fsType⟩
  | _ => none

end FileStore

namespace RuntimeMemory

def toTree (m : RuntimeMemory) : Tree :=
  .table [("rss_bytes", .ofUInt64 m.rssBytes), ("virtual_bytes", .ofUInt64 m.virtualBytes),
    ("peak_virtual_bytes", .ofUInt64 m.peakVirtualBytes)]

def ofTree? (d : Dialect) (t : Tree) : Option RuntimeMemory := do
  match ← t.fields? d ["rss_bytes", "virtual_bytes", "peak_virtual_bytes"] with
  | [rssBytes, virtualBytes, peakVirtualBytes] =>
    some ⟨← required uint64? rssBytes, ← required uint64? virtualBytes,
      ← required uint64? peakVirtualBytes⟩
  | _ => none

end RuntimeMemory

namespace ThreadInfo

def toTree (t : ThreadInfo) : Tree :=
  .table [("count", .ofUInt64 t.count), ("voluntary_switches", .ofUInt64 t.voluntarySwitches),
    ("involuntary_switches", .ofUInt64 t.involuntarySwitches)]

def ofTree? (d : Dialect) (t : Tree) : Option ThreadInfo := do
  match ← t.fields? d ["count", "voluntary_switches", "involuntary_switches"] with
  | [count, voluntarySwitches, involuntarySwitches] =>
    some ⟨← required uint64? count, ← required uint64? voluntarySwitches,
      ← required uint64? involuntarySwitches⟩
  | _ => none

end ThreadInfo

namespace GcInfo

def toTree (g : GcInfo) : Tree :=
  .table [("name", .text g.name), ("collections", .ofUInt64 g.collections),
    ("time_ms", .ofUInt64 g.timeMs)]

def ofTree? (d : Dialect) (t : Tree) : Option GcInfo := do
  match ← t.fields? d ["name", "collections", "time_ms"] with
  | [name, collections, timeMs] =>
    some ⟨← required text? name, ← required uint64? collections, ← required uint64? timeMs⟩
  | _ => none

end GcInfo

namespace PortState

def toTree (p : PortState) : Tree :=
  .table [("port", .ofUInt16 p.port), ("listening", .flag p.listening)]

def ofTree? (d : Dialect) (t : Tree) : Option PortState := do
  match ← t.fields? d ["port", "listening"] with
  | [port, listening] =>
    some ⟨← required uint16? port, ← required flag? listening⟩
  | _ => none

end PortState

namespace CpuUsage

def toTree (u : CpuUsage) : Tree :=
  .table [("cpu_num", .ofUInt64 u.cpuNum), ("sys", .ofReal u.sys), ("user", .ofReal u.user),
    ("io_wait", .ofReal u.ioWait), ("idle", .ofReal u.idle)]

def ofTree? (d : Dialect) (t : Tree) : Option CpuUsage := do
  match ← t.fields? d ["cpu_num", "sys", "user", "io_wait", "idle"] with
  | [cpuNum, sys, user, ioWait, idle] =>
    some ⟨← required uint64? cpuNum, ← required real? sys, ← required real? user,
      ← required real? ioWait, ← required real? idle⟩
  | _ => none

end CpuUsage

namespace DiskRate

def toTree (r : DiskRate) : Tree :=
  .table [("name", .text r.name), ("queue_length", .ofUInt64 r.queueLength),
    ("read_per_second", .ofReal r.readPerSecond),
    ("read_bytes_per_second", .ofReal r.readBytesPerSecond),
    ("write_per_second", .ofReal r.writePerSecond),
    ("write_bytes_per_second", .ofReal r.writeBytesPerSecond)]

def ofTree? (d : Dialect) (t : Tree) : Option DiskRate := do
  match ← t.fields? d ["name", "queue_length", "read_per_second", "read_bytes_per_second",
      "write_per_second", "write_bytes_per_second"] with
  | [name, queueLength, readPerSecond, readBytesPerSecond, writePerSecond, writeBytesPerSecond] =>
    some ⟨← required text? name, ← required uint64? queueLength, ← required real? readPerSecond,
      ← required real? readBytesPerSecond, ← required real? writePerSecond,
      ← required real? writeBytesPerSecond⟩
  | _ => none

end DiskRate

namespace NetRate

def toTree (r : NetRate) : Tree :=
  .table [("name", .text r.name), ("recv_bytes", .ofUInt64 r.recvBytes),
    ("recv_count", .ofUInt64 r.recvCount), ("sent_bytes", .ofUInt64 r.sentBytes),
    ("sent_count", .ofUInt64 r.sentCount),
    ("recv_bytes_per_second", .ofReal r.recvBytesPerSecond),
    ("sent_bytes_per_second", .ofReal r.sentBytesPerSecond)]

def ofTree? (d : Dialect) (t : Tree) : Option NetRate := do
  match ← t.fields? d ["name", "recv_bytes", "recv_count", "sent_bytes", "sent_count",
      "recv_bytes_per_second", "sent_bytes_per_second"] with
  | [name, recvBytes, recvCount, sentBytes, sentCount, recvBytesPerSecond, sentBytesPerSecond] =>
    some ⟨← required text? name, ← required uint64? recvBytes, ← required uint64? recvCount,
      ← required uint64? sentBytes, ← required uint64? sentCount,
      ← required real? recvBytesPerSecond, ← required real? sentBytesPerSecond⟩
  | _ => none

end NetRate

namespace Timestamp

def toTree (t : Timestamp) : Tree :=
  .text (String.ofList t.write)

def ofTree? (t : Tree) : Option Timestamp := do
  read? (← t.text?).toList

end Timestamp

namespace Snapshot

-- The entry of a section that was collected.
def collected {α : Type} (name : String) (write : α → Tree) (content : Option α) :
    List (String × Tree) :=
  match content with
  | some a => [(name, write a)]
  | none => []

def listTree {α : Type} (write : α → Tree) (items : List α) : Tree :=
  .list (items.map write)

def toTree (s : Snapshot) : Tree :=
  .table ([("node", .text s.node), ("timestamp", s.timestamp.toTree)] ++
    collected "process" ProcessInfo.toTree s.process ++
    collected "disk" (listTree DiskInfo.toTree) s.disk ++
    collected "sys" SystemSummary.toTree s.sys ++
    collected "sys_file" (listTree FileStore.toTree) s.sysFile ++
    collected "memory" RuntimeMemory.toTree s.memory ++
    collected "thread" ThreadInfo.toTree s.thread ++
    collected "gc" (listTree GcInfo.toTree) s.gc ++
    collected "port" (listTree PortState.toTree) s.port ++
    collected "cpu" CpuUsage.toTree s.cpu ++
    collected "disk_io" (listTree DiskRate.toTree) s.diskIo ++
    collected "network" (listTree NetRate.toTree) s.network)

def fieldNames : List String :=
  ["node", "timestamp", "process", "disk", "sys", "sys_file", "memory", "thread", "gc", "port",
    "cpu", "disk_io", "network"]

def ofTree? (d : Dialect) (t : Tree) : Option Snapshot := do
  match ← t.fields? d fieldNames with
  | [node, timestamp, process, disk, sys, sysFile, memory, thread, gc, port, cpu, diskIo,
      network] =>
    some {
      node := ← required text? node
      timestamp := ← required Timestamp.ofTree? timestamp
      process := ← optional (ProcessInfo.ofTree? d) process
      disk := ← optional (listOf? (DiskInfo.ofTree? d)) disk
      sys := ← optional (SystemSummary.ofTree? d) sys
      sysFile := ← optional (listOf? (FileStore.ofTree? d)) sysFile
      memory := ← optional (RuntimeMemory.ofTree? d) memory
      thread := ← optional (ThreadInfo.ofTree? d) thread
      gc := ← optional (listOf? (GcInfo.ofTree? d)) gc
      port := ← optional (listOf? (PortState.ofTree? d)) port
      cpu := ← optional (CpuUsage.ofTree? d) cpu
      diskIo := ← optional (listOf? (DiskRate.ofTree? d)) diskIo
      network := ← optional (listOf? (NetRate.ofTree? d)) network
    }
  | _ => none

end Snapshot

end MetricRelay
