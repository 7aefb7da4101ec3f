import MetricRelay.Proc.Counters
import MetricRelay.Proc.Status

namespace MetricRelay.Proc

def partition? (r : Row) : Option DiskInfo :=
  match r with
  | [_, _, blocks, name] => do some ⟨String.ofList name, (← number? blocks) * kibibyte⟩
  | _ => none

-- The disks of the table `partitions`, whose sizes are given in kibibytes.
def disks (partitions : String) : List DiskInfo :=
  (rows partitions).filterMap partition?

-- A path of the table `mounts`, where a blank is written by number.
def unescapeMount : List Char → List Char
  | '\\' :: '0' :: '4' :: '0' :: rest => ' ' :: unescapeMount rest
  | c :: rest => c :: unescapeMount rest
  | [] => []

def mount? (r : Row) : Option FileStore :=
  match r with
  | device :: mount :: fsType :: _ =>
    if device.head? = some '/' then
      some ⟨String.ofList device, String.ofList (unescapeMount mount), String.ofList fsType⟩
    else none
  | _ => none

-- The mounts of a device, from the table `mounts`.
def fileStores (mounts : String) : List FileStore :=
  (rows mounts).filterMap mount?

-- The state of a socket that waits for connections.
def listeningState : List Char := ['0', 'A']

-- The local port of a row of the socket table, if it is listened on.
def listeningPort? (r : Row) : Option UInt16 :=
  match r with
  | _ :: address :: _ :: state :: _ =>
    if state = listeningState then do
      let (_, port) ← Text.cutLast? ':' address
      (Numeral.count? 16 65535 port).map UInt16.ofNat
    else none
  | _ => none

-- The ports that the table `net/tcp` or `net/tcp6` shows as listened on. Its first line is a
-- heading.
def listeningPorts (table : String) : List UInt16 :=
  ((rows table).drop 1).filterMap listeningPort?

end MetricRelay.Proc
