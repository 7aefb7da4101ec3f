import MetricRelay.Fault
import MetricRelay.Text.Blank

namespace MetricRelay

-- A kind of metric that a job can ask for. The order of the constructors is the order of
-- collection: what one reading gives comes first, the rates, which need two, last.
inductive Kind where
  | process
  | disk
  | sys
  | sysFile
  | memory
  | thread
  | gc
  | port
  | cpu
  | diskIo
  | network
deriving DecidableEq

namespace Kind

-- The catalogue.
def all : List Kind :=
  [process, disk, sys, sysFile, memory, thread, gc, port, cpu, diskIo, network]

-- Whether the kind is computed from two readings a while apart.
def isRate : Kind → Bool
  | cpu | diskIo | network => true
  | _ => false

-- The name in settings and snapshots.
def name : Kind → String
  | process => "process"
  | disk => "disk"
  | sys => "sys"
  | sysFile => "sys_file"
  | memory => "memory"
  | thread => "thread"
  | gc => "gc"
  | port => "port"
  | cpu => "cpu"
  | diskIo => "disk_io"
  | network => "network"

-- The heading under which faults list the kind.
def heading : Kind → String
  | process => "Process"
  | disk => "Disk"
  | sys => "Sys"
  | sysFile => "SysFile"
  | memory => "Memory"
  | thread => "Thread"
  | gc => "Gc"
  | port => "Port"
  | cpu => "Cpu"
  | diskIo => "DiskIo"
  | network => "Network"

def ofName? (s : String) : Option Kind :=
  all.find? fun k => k.name == s

-- A typed name may have blanks around it, ASCII capitals, and hyphens for underscores.
def normalName (s : String) : String :=
  String.ofList ((Text.trim s.toList).map fun c => if c = '-' then '_' else c.toLower)

def parse (s : String) : Except Fault Kind :=
  match ofName? (normalName s) with
  | some k => .ok k
  | none => .error (.config ("Unknown metric kind: " ++ s))

-- The kinds asked for, each once and in catalogue order.
def requested (kinds : List Kind) : List Kind :=
  all.filter fun k => kinds.contains k

end Kind

end MetricRelay
