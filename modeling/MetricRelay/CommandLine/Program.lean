import MetricRelay.CommandLine.Help
import MetricRelay.Proc.Host
import MetricRelay.Scheduling.Timeline
import MetricRelay.Settings.File
import MetricRelay.Settings.Validation
import MetricRelay.Snapshot.Json

namespace MetricRelay.CommandLine

-- What a run of the program leaves: its exit code, what it printed, and the files as they are.
structure Report where
  exit : Nat
  output : String
  errors : String
  files : Files

-- A failure: what could not be done, and why, from the nearest cause to the farthest.
structure Failure where
  message : String
  causes : List String
deriving DecidableEq

namespace Failure

-- A fault of input or output has the fault of the system for its cause.
def chain (f : Fault) : List String :=
  match f with
  | .io text => [f.message, text]
  | _ => [f.message]

def ofFault (f : Fault) : Failure :=
  match chain f with
  | message :: causes => ⟨message, causes⟩
  | [] => ⟨f.message, []⟩

def context (message : String) (f : Fault) : Failure :=
  ⟨message, chain f⟩

-- The lines of a text behind the first, moved to the right.
def indented (width : Nat) (text : String) : String :=
  ("\n" ++ String.ofList (List.replicate width ' ')).intercalate (text.splitOn "\n")

def numbered (p : String × Nat) : String :=
  "    " ++ toString p.2 ++ ": " ++ indented 7 p.1

-- The text for a person. Several causes are numbered.
def text (f : Failure) : String :=
  "Error: " ++ f.message ++
    (match f.causes with
      | [] => ""
      | [cause] => "\n\nCaused by:\n    " ++ indented 4 cause
      | causes => "\n\nCaused by:\n" ++ "\n".intercalate (causes.zipIdx.map numbered)) ++ "\n"

end Failure

-- What a command prints, whether it fails in the end, and the files that it leaves.
structure Done where
  lines : List String
  failure : Option Failure
  files : Files

def Done.fail (files : Files) (f : Failure) : Done :=
  ⟨[], some f, files⟩

def Done.report (d : Done) : Report where
  exit := if d.failure.isSome then 1 else 0
  output := String.join (d.lines.map fun l => l ++ "\n")
  errors := (d.failure.map Failure.text).getD ""
  files := d.files

def decimal (n : Nat) : String :=
  String.ofList (Numeral.decimal n)

-- The lines about an active entry.
def entryLines (p : Sentinel × Nat) : List String :=
  let s := p.1
  let runs := if s.isUnbounded then "unbounded" else toString s.count.toInt
  let tasks := ",".intercalate (s.tasks.map Kind.name)
  let ports := ",".intercalate (s.listenedPorts.map fun n => decimal n.toNat)
  ["  [" ++ decimal p.2 ++ "] every " ++ decimal s.interval.toNat ++ "s, runs: " ++ runs ++
      ", tasks: " ++ tasks] ++
    (if s.listenedPorts.isEmpty then [] else ["      ports: " ++ ports]) ++
    s.subscribers.map fun x =>
      "      -> " ++ x.kind.name ++ " " ++ x.url ++
        if x.enabledAuth.isSome then " (basic auth)" else ""

-- The lines about settings.
def summary (path : String) (s : Settings) : List String :=
  let active := s.active
  ["Vigil Configuration",
    "===================",
    "File: " ++ path,
    "Node: " ++ s.name,
    "Breaker: " ++ decimal s.breaker.failureThreshold.toNat ++ " failures, " ++
      decimal s.breaker.cooldownSecs.toNat ++ "s cooldown",
    "",
    "Sentinel jobs: " ++ decimal active.length ++ " active, " ++
      decimal (s.sentinel.length - active.length) ++ " dropped"] ++
    active.zipIdx.flatMap entryLines

def validate (files : Files) (path : String) (s : Settings) : Done :=
  match s.validate with
  | .error f => .fail files (.context ("Invalid configuration in " ++ path) f)
  | .ok _ =>
    ⟨summary path s, if s.active.isEmpty then some (.ofFault .noActiveJobs) else none, files⟩

-- What a run ends with once its jobs are scheduled, where requests have no way out.
def noTransport : Fault :=
  .transport "no way to reach the network"

def run (files : Files) (source : Source) (s : Settings) : Done :=
  match s.validate with
  | .error f => .fail files (.ofFault f)
  | .ok _ =>
    match ((s.node source).start s.sentinel).1 with
    | .error f => .fail files (.context "Failed to start sentinel scheduler" f)
    | .ok _ => .fail files (.ofFault noTransport)

def sample (files : Files) (source : Source) (now : Timestamp) (s : Settings) (tasks : List Kind)
    (ports : List UInt16) (node : Option String) : Done :=
  let name := node.getD s.name
  let failed := fun f => Done.fail files (.context "Failed to collect snapshot" f)
  match (Collection.run name now tasks ports s.sampling.delayMs.toNat source).1.ending with
  | .value (some x) => ⟨[Json.renderPretty x.toTree], none, files⟩
  | .value none => failed Collection.undelivered
  | .fault f => failed f
  | .panic text => failed (.other text)

def init (files : Files) (path : String) (force : Bool) : Done :=
  if files.has path && !force then
    .fail files ⟨path ++ " already exists (use --force to overwrite)", []⟩
  else match Settings.writeTemplate files path with
    | .error f => .fail files (.context ("Failed to write " ++ path) f)
    | .ok files' => ⟨["Wrote default configuration to " ++ path], none, files'⟩

-- The settings that a command works with.
def settings (files : Files) (i : Invocation) : Except Fault Settings :=
  match i.command with
  | .init .. => .ok .default
  | .run => Settings.load files i.config
  | _ => Settings.loadOrDefault files i.config

def perform (files : Files) (source : Source) (now : Timestamp) (i : Invocation) : Done :=
  match settings files i with
  | .error f => .fail files (.context ("Failed to load " ++ i.config) f)
  | .ok s =>
    match i.command with
    | .run => run files source s
    | .sample tasks ports node => sample files source now s tasks ports node
    | .validate => validate files i.config s
    | .init path force => init files (path.getD i.config) force

def versionLine : String := "vigil 0.1.0"

-- What comes of arguments that cannot be understood.
def usageReport (files : Files) : Report :=
  ⟨2, "", "error: the arguments are not understood\n\nUsage: vigil [OPTIONS] <COMMAND>\n", files⟩

-- A run of the program with some arguments.
def respond (files : Files) (source : Source) (now : Timestamp) (args : List String) : Report :=
  match demand? args with
  | none => usageReport files
  | some .version => Done.report ⟨[versionLine], none, files⟩
  | some (.help command) => Done.report ⟨helpLines command, none, files⟩
  | some (.invoke i) => (perform files source now i).report

-- The milliseconds between the two readings that a command takes, if it takes two.
def waits? (files : Files) (args : List String) : Option Nat :=
  match demand? args with
  | some (.invoke i) =>
    match i.command, settings files i with
    | .sample tasks _ _, .ok s =>
      if tasks.any Kind.isRate then some s.sampling.delayMs.toNat else none
    | _, _ => none
  | _ => none

-- The path of the file that a command reads or writes.
def pathOf? (args : List String) : Option String :=
  match demand? args with
  | some (.invoke i) =>
    match i.command with
    | .init path _ => some (path.getD i.config)
    | _ => some i.config
  | _ => none

end MetricRelay.CommandLine
