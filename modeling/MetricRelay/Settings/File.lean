import MetricRelay.Files
import MetricRelay.Settings.Document
import MetricRelay.Toml.Reader

namespace MetricRelay

def FileFault.asFault (f : FileFault) : Fault :=
  .io f.message

namespace Settings

-- The settings that a document in TOML spells out. What it leaves open has its default.
def ofToml (text : String) : Except Fault Settings :=
  match (Toml.read? text).bind (ofTree? Toml.dialect) with
  | some s => .ok s
  | none => .error (.config "Failed to parse config")

def load (files : Files) (path : String) : Except Fault Settings :=
  match files.readText path with
  | .ok text => ofToml text
  | .error f => .error f.asFault

-- The settings of a file, or the defaults where there is no such file.
def loadOrDefault (files : Files) (path : String) : Except Fault Settings :=
  if files.has path then load files path else .ok .default

-- The lines of a file with all defaults.
def templateLines : List String :=
  let d := Settings.default
  let number := fun (n : Nat) => String.ofList (Numeral.decimal n)
  let quoted := fun (s : String) => "\"" ++ s ++ "\""
  ["name = " ++ quoted d.name,
    "work_threads = " ++ number d.workThreads.toNat,
    "sentinel = []",
    "",
    "[log]",
    "level = " ++ quoted d.log.level,
    "",
    "[breaker]",
    "failure_threshold = " ++ number d.breaker.failureThreshold.toNat,
    "cooldown_secs = " ++ number d.breaker.cooldownSecs.toNat,
    "",
    "[sampling]",
    "delay_ms = " ++ number d.sampling.delayMs.toNat,
    "",
    "[http]",
    "timeout_secs = " ++ number d.http.timeoutSecs.toNat,
    "",
    "[scheduler]",
    "advance_on_failure = " ++ (if d.scheduler.advanceOnFailure then "true" else "false")]

def template : String :=
  String.join (templateLines.map fun l => l ++ "\n")

-- Writes the template to a file.
def writeTemplate (files : Files) (path : String) : Except Fault Files :=
  match files.writeWithParents path (Text.bytes template) with
  | .ok t => .ok t
  | .error f => .error f.asFault

end Settings

end MetricRelay
