import MetricRelay.Fault
import MetricRelay.Kind
import MetricRelay.Reading.Basic

namespace MetricRelay

-- One thing that can be read again and again: how the reading with a given number ends, counted
-- from zero, how many were taken, and the fault that all end with while it is blocked. A blocked
-- reading is not counted.
structure Feed (α : Type) where
  replies : Nat → Ending α
  taken : Nat
  blocked : Option Fault

namespace Feed

variable {α β : Type}

-- A feed not read yet.
def of (replies : Nat → Ending α) : Feed α :=
  ⟨replies, 0, none⟩

-- A feed that gives the same value every time.
def constant (a : α) : Feed α :=
  .of fun _ => .value a

def next (f : Feed α) : Ending α × Feed α :=
  match f.blocked with
  | some e => (.fault e, f)
  | none => (f.replies f.taken, { f with taken := f.taken + 1 })

def block (e : Fault) (f : Feed α) : Feed α :=
  { f with blocked := some e }

def unblock (f : Feed α) : Feed α :=
  { f with blocked := none }

-- What comes of a feed whose values are looked into further.
def andThen (f : Feed α) (next : α → Ending β) : Feed β :=
  ⟨fun n => (f.replies n).andThen next, f.taken, f.blocked⟩

@[simp] theorem andThen_next_snd (f : Feed α) (next : α → Ending β) :
    (f.andThen next).next.2 = f.next.2.andThen next := by
  obtain ⟨replies, taken, blocked⟩ := f
  cases blocked <;> rfl

end Feed

-- Where readings come from. It sees which ports are listened on, and has its own way to answer for
-- the ports that it is asked for.
structure Source where
  process : Feed ProcessInfo
  disks : Feed (List DiskInfo)
  cpuCount : Feed UInt64
  loadAverage : Feed LoadAverage
  systemMemory : Feed SystemMemory
  fileStores : Feed (List FileStore)
  runtimeMemory : Feed RuntimeMemory
  threads : Feed ThreadInfo
  gc : Feed (List GcInfo)
  listening : Feed (List UInt16)
  portStates (listening asked : List UInt16) : Ending (List PortState)
  cpuTicks : Feed CpuTicks
  diskCounters : Feed (List DiskCounters)
  netCounters : Feed (List NetCounters)

-- What the source tells about some ports at each reading.
def Source.ports (s : Source) (asked : List UInt16) : Feed (List PortState) :=
  s.listening.andThen (s.portStates · asked)

-- There is a source for whatever may be told at each reading about whichever ports.
theorem Source.exists_ports_eq (s : Source)
    (replies : Nat → List UInt16 → Ending (List PortState)) :
    ∃ listening portStates, ∀ asked,
      { s with listening := listening, portStates := portStates }.ports asked =
        .of fun n => replies n asked := by
  refine ⟨.of fun n => .value (List.replicate n 0),
    fun listening asked => replies listening.length asked, fun asked => ?_⟩
  simp [ports, Feed.andThen, Feed.of, Ending.andThen]

-- Readings in a row: how they end, and what they leave of the source. What comes after a fault
-- or a panic is not read.
def Probe (α : Type) : Type :=
  Source → Ending α × Source

namespace Probe

variable {α β : Type}

def give (a : α) : Probe α :=
  fun s => (.value a, s)

def andThen (p : Probe α) (next : α → Probe β) : Probe β :=
  fun s =>
    match p s with
    | (.value a, s') => next a s'
    | (.fault e, s') => (.fault e, s')
    | (.panic t, s') => (.panic t, s')

instance : Monad Probe where
  pure := give
  bind := andThen

-- One reading of a feed.
def ofFeed (get : Source → Feed α) (put : Source → Feed α → Source) : Probe α :=
  fun s => let r := (get s).next; (r.1, put s r.2)

def process : Probe ProcessInfo :=
  ofFeed Source.process fun s f => { s with process := f }

def disks : Probe (List DiskInfo) :=
  ofFeed Source.disks fun s f => { s with disks := f }

def cpuCount : Probe UInt64 :=
  ofFeed Source.cpuCount fun s f => { s with cpuCount := f }

def loadAverage : Probe LoadAverage :=
  ofFeed Source.loadAverage fun s f => { s with loadAverage := f }

def systemMemory : Probe SystemMemory :=
  ofFeed Source.systemMemory fun s f => { s with systemMemory := f }

def fileStores : Probe (List FileStore) :=
  ofFeed Source.fileStores fun s f => { s with fileStores := f }

def runtimeMemory : Probe RuntimeMemory :=
  ofFeed Source.runtimeMemory fun s f => { s with runtimeMemory := f }

def threads : Probe ThreadInfo :=
  ofFeed Source.threads fun s f => { s with threads := f }

def gc : Probe (List GcInfo) :=
  ofFeed Source.gc fun s f => { s with gc := f }

def portStates (asked : List UInt16) : Probe (List PortState) :=
  ofFeed (·.ports asked) fun s _ => { s with listening := s.listening.next.2 }

def cpuTicks : Probe CpuTicks :=
  ofFeed Source.cpuTicks fun s f => { s with cpuTicks := f }

def diskCounters : Probe (List DiskCounters) :=
  ofFeed Source.diskCounters fun s f => { s with diskCounters := f }

def netCounters : Probe (List NetCounters) :=
  ofFeed Source.netCounters fun s f => { s with netCounters := f }

end Probe

namespace Source

-- Lets every reading that a kind alone rests on end with a fault.
def block (k : Kind) (e : Fault) (s : Source) : Source :=
  match k with
  | .process => { s with process := s.process.block e }
  | .disk => { s with disks := s.disks.block e }
  | .sys =>
    { s with loadAverage := s.loadAverage.block e, systemMemory := s.systemMemory.block e }
  | .sysFile => { s with fileStores := s.fileStores.block e }
  | .memory => { s with runtimeMemory := s.runtimeMemory.block e }
  | .thread => { s with threads := s.threads.block e }
  | .gc => { s with gc := s.gc.block e }
  | .port => { s with listening := s.listening.block e }
  | .cpu => { s with cpuTicks := s.cpuTicks.block e }
  | .diskIo => { s with diskCounters := s.diskCounters.block e }
  | .network => { s with netCounters := s.netCounters.block e }

-- Ends all blocking.
def unblock (s : Source) : Source where
  process := s.process.unblock
  disks := s.disks.unblock
  cpuCount := s.cpuCount.unblock
  loadAverage := s.loadAverage.unblock
  systemMemory := s.systemMemory.unblock
  fileStores := s.fileStores.unblock
  runtimeMemory := s.runtimeMemory.unblock
  threads := s.threads.unblock
  gc := s.gc.unblock
  listening := s.listening.unblock
  portStates := s.portStates
  cpuTicks := s.cpuTicks.unblock
  diskCounters := s.diskCounters.unblock
  netCounters := s.netCounters.unblock

-- A source of zeros and empty lists, with one processor.
def idle : Source where
  process := .constant ⟨0, ""⟩
  disks := .constant []
  cpuCount := .constant 1
  loadAverage := .constant ⟨0, 0⟩
  systemMemory := .constant .zero
  fileStores := .constant []
  runtimeMemory := .constant ⟨0, 0, 0⟩
  threads := .constant ⟨0, 0, 0⟩
  gc := .constant []
  listening := .constant []
  portStates listening asked := .value (PortState.among listening asked)
  cpuTicks := .constant ⟨0, 0, 0, 0, 0, 0, 0, 0⟩
  diskCounters := .constant []
  netCounters := .constant []

end Source

end MetricRelay
