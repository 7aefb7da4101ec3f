import MetricRelay.Fault
import MetricRelay.Reading.Basic
import MetricRelay.Text.Blank
import MetricRelay.Text.Numeral

namespace MetricRelay.Proc

-- A line of a table, taken apart at its blanks.
abbrev Row := List (List Char)

def rows (text : String) : List Row :=
  (Text.lines text.toList).map Text.words

-- A number of 64 bits.
def number? (field : List Char) : Option UInt64 :=
  (Numeral.count? 10 (UInt64.size - 1) field).map UInt64.ofNat

-- The number in a column; what is missing or no number counts as zero.
def Row.number (r : Row) (column : Nat) : UInt64 :=
  (r[column]?.bind number?).getD 0

def sectorSize : UInt64 := 512

def cpuTicksRow? (r : Row) : Option CpuTicks :=
  match r with
  | [] => none
  | name :: values =>
    let value := Row.number values
    if name = ['c', 'p', 'u'] then
      some ⟨value 0, value 1, value 2, value 3, value 4, value 5, value 6, value 7⟩
    else none

-- The ticks of all processors together, from the table `stat`.
def cpuTicks (stat : String) : Except Fault CpuTicks :=
  match (rows stat).findSome? cpuTicksRow? with
  | some t => .ok t
  | none => .error (.provider "stat has no aggregate cpu line")

-- Whether the row is that of a single processor.
def isCpuRow (r : Row) : Bool :=
  match r with
  | ('c' :: 'p' :: 'u' :: number) :: _ => !number.isEmpty && number.all Numeral.isDigit
  | _ => false

-- How many processors the table `stat` lists.
def cpuCount (stat : String) : Except Fault UInt64 :=
  let n := (rows stat).countP isCpuRow
  if n = 0 then .error (.provider "stat lists no cpus") else .ok (UInt64.ofNat n)

def diskRow? (r : Row) : Option DiskCounters :=
  match r with
  | _ :: _ :: name :: _ =>
    if r.length < 12 then none
    else some {
      name := String.ofList name
      reads := r.number 3
      readBytes := r.number 5 * sectorSize
      writes := r.number 7
      writeBytes := r.number 9 * sectorSize
      queueLength := r.number 11
    }
  | _ => none

-- The counters of the table `diskstats`. Rows with fewer than twelve columns are left out.
def diskCounters (diskstats : String) : List DiskCounters :=
  (rows diskstats).filterMap diskRow?

def netLine? (line : List Char) : Option NetCounters := do
  let (name, rest) ← Text.cut? ':' line
  let r : Row := Text.words rest
  if r.length < 10 then none
  else some {
    name := String.ofList (Text.trim name)
    recvBytes := r.number 0
    recvPackets := r.number 1
    sentBytes := r.number 8
    sentPackets := r.number 9
  }

-- The counters of the table `net/dev`: behind the colon ten columns or more.
def netCounters (netDev : String) : List NetCounters :=
  (Text.lines netDev.toList).filterMap netLine?

end MetricRelay.Proc
