import MetricRelay.CommandLine.Program

namespace MetricRelay.Main

-- What is at a place of the file system, if anything.
def nodeAt? (place : String) : IO (Option FileNode) := do
  try
    return some (.file (← IO.FS.readBinFile place).data.toList)
  catch
    | .inappropriateType _ 21 _ => return some .directory
    | _ => return none

-- The files and directories on the way along a path from a working directory.
def filesAlong (home : List String) (path : String) : IO Files := do
  let mut files : Files := ⟨home, []⟩
  let mut place := files.origin (Files.steps path)
  for step in Files.steps path do
    if step = ".." then place := place.dropLast
    else if step ≠ "" ∧ step ≠ "." then
      place := place ++ [step]
      match ← nodeAt? ("/" ++ "/".intercalate place) with
      | some node => files := files.put place node
      | none => pure ()
  return files

-- The names that lead to the working directory.
def workingDirectory : IO (List String) := do
  return (Files.steps (← IO.currentDir).toString).filter fun step => step ≠ ""

def procPaths : List String :=
  ["stat", "diskstats", "net/dev", "loadavg", "meminfo", "partitions", "mounts", "self/comm",
    "self/status", "net/tcp", "net/tcp6"]

def numberIn (text : String) : Nat :=
  (Numeral.continue? 10 0 (text.toList.takeWhile Numeral.isDigit)).getD 0

-- This host as it is now.
def host : IO Host := do
  let mut files : Files := ⟨["proc"], []⟩
  for path in procPaths do
    for e in (← filesAlong ["proc"] path).nodes do files := files.put e.1 e.2
  let self ← try IO.FS.readFile "/proc/self/stat" catch _ => pure ""
  return ⟨"/proc", files, UInt32.ofNat (numberIn self)⟩

-- The present moment: the time when the host was started and how long ago that was.
def now : IO Timestamp := do
  let stat ← try IO.FS.readFile "/proc/stat" catch _ => pure ""
  let uptime ← try IO.FS.readFile "/proc/uptime" catch _ => pure ""
  let boot := (stat.splitOn "\n").findSome? fun l =>
    if l.startsWith "btime " then some (numberIn (String.ofList (l.toList.drop 6))) else none
  let hundredths := numberIn (String.ofList ((uptime.toList.takeWhile (· ≠ ' ')).filter (· ≠ '.')))
  return .ofMillis (1000 * boot.getD 0 + 10 * hundredths)

-- Brings the file system to what a run left.
def store (before after : Files) : IO Unit := do
  for (place, node) in after.nodes do
    if before.node? place ≠ some node then
      let path := "/" ++ "/".intercalate place
      match node with
      | .directory => IO.FS.createDir path
      | .file bytes => IO.FS.writeBinFile path ⟨bytes.toArray⟩

end MetricRelay.Main

open MetricRelay Main in
def main (args : List String) : IO UInt32 := do
  let path := (CommandLine.pathOf? args).getD ""
  let files ← filesAlong (← workingDirectory) path
  let time ← now
  let first ← host
  let second ← match CommandLine.waits? files args with
    | some millis => do
      IO.sleep (UInt32.ofNat millis)
      host
    | none => pure first
  let source := Host.source fun n => if n = 0 then first else second
  let report := CommandLine.respond files source time args
  store files report.files
  IO.print report.output
  IO.eprint report.errors
  return UInt32.ofNat report.exit
