import MetricRelay.Decimal.Notation
import MetricRelay.Proc.Counters
import MetricRelay.Text.Quoted

namespace MetricRelay.Proc

def kibibyte : UInt64 := 1024

-- The load of the last minute, which also has to do for the present one.
def loadAverage (loadavg : String) : Except Fault LoadAverage :=
  match (Text.words loadavg.toList).head?.bind Decimal.read? with
  | some x => .ok ⟨x, x⟩
  | none =>
    let shown := String.ofList (Text.quoted (Text.trim loadavg.toList))
    .error (.provider ("malformed loadavg: " ++ shown))

-- The name and the number of a line such as `Threads: 4`.
def entry? (line : List Char) : Option (String × UInt64) := do
  let (name, rest) ← Text.cut? ':' line
  some (String.ofList (Text.trim name), ← (Text.words rest).head?.bind number?)

def entries (text : String) : List (String × UInt64) :=
  (Text.lines text.toList).filterMap entry?

-- The number under a name. The last line with the name counts.
def lookup? (es : List (String × UInt64)) (name : String) : Option UInt64 :=
  (es.reverse.find? fun e => e.1 == name).map (·.2)

-- Bytes under a name that the table gives in kibibytes; zero if it does not.
def bytesOf (es : List (String × UInt64)) (name : String) : UInt64 :=
  (lookup? es name).getD 0 * kibibyte

def systemMemory (meminfo : String) : SystemMemory :=
  let es := entries meminfo
  let bytes := bytesOf es
  ⟨bytes "MemTotal", bytes "MemFree", bytes "MemAvailable", bytes "Buffers", bytes "Cached",
    bytes "SwapTotal", bytes "SwapFree"⟩

def runtimeMemory (status : String) : RuntimeMemory :=
  let es := entries status
  ⟨bytesOf es "VmRSS", bytesOf es "VmSize", bytesOf es "VmPeak"⟩

def threads (status : String) : Except Fault ThreadInfo :=
  let es := entries status
  match lookup? es "Threads" with
  | none => .error (.provider "status has no Threads line")
  | some n =>
    .ok ⟨n, (lookup? es "voluntary_ctxt_switches").getD 0,
      (lookup? es "nonvoluntary_ctxt_switches").getD 0⟩

end MetricRelay.Proc
