import MetricRelay.Kind
import MetricRelay.Text.Numeral

namespace MetricRelay.CommandLine

-- What the program is told to do.
inductive Command where
  | run
  | sample (tasks : List Kind) (ports : List UInt16) (node : Option String)
  | validate
  | init (path : Option String) (force : Bool)
deriving DecidableEq

structure Invocation where
  verbose : Bool
  config : String
  command : Command
deriving DecidableEq

-- What arguments ask for. Help is about one of the commands or about the program.
inductive Demand where
  | version
  | help (command : Option String)
  | invoke (i : Invocation)
deriving DecidableEq

-- An option that can be given: by its name behind two hyphens or by its letter behind one. What
-- comes behind an `immediate` one is not looked at.
structure Flag where
  name : String
  letter : Option Char
  takesValue : Bool
  immediate : Bool
  purpose : String

def verboseFlag : Flag := ⟨"verbose", some 'v', false, false, "Enable verbose logging"⟩

def configFlag : Flag :=
  ⟨"config", some 'c', true, false, "Configuration file [default: vigil.toml]"⟩

def helpFlag : Flag := ⟨"help", some 'h', false, true, "Print help"⟩

def versionFlag : Flag := ⟨"version", some 'V', false, true, "Print version"⟩

def tasksFlag : Flag :=
  ⟨"tasks", some 't', true, false, "Metric kinds to collect [default: cpu sys]"⟩

def portsFlag : Flag := ⟨"ports", some 'p', true, false, "Ports reported by the `port` task"⟩

def nodeFlag : Flag := ⟨"node", none, true, false, "Node name (defaults to the configured name)"⟩

def forceFlag : Flag := ⟨"force", none, false, false, "Overwrite an existing file"⟩

-- Options that stand anywhere.
def globalFlags : List Flag :=
  [verboseFlag, configFlag, helpFlag]

-- What was given: an option with its value, which is empty if it takes none, or a word.
inductive Item where
  | option (name value : String)
  | word (s : String)
deriving DecidableEq

-- The options of letters behind one hyphen, up to the first that takes a value, and that one with
-- the value behind it if there is something.
def cluster (flags : List Flag) : List Char → Option (List Flag × Option (Flag × Option String))
  | [] => some ([], none)
  | c :: cs => do
    let f ← flags.find? fun f => f.letter == some c
    if f.takesValue then
      let value := match cs with
        | [] => none
        | '=' :: rest => some (String.ofList rest)
        | _ => some (String.ofList cs)
      some ([], some (f, value))
    else if f.immediate then some ([f], none)
    else (cluster flags cs).map fun r => (f :: r.1, r.2)

-- The option of a long argument, from behind the hyphens, and the value behind an equals sign.
def long? (flags : List Flag) (cs : List Char) : Option (Flag × Option String) :=
  let name := String.ofList (cs.takeWhile (· ≠ '='))
  let value := match cs.dropWhile (· ≠ '=') with
    | [] => none
    | _ :: rest => some (String.ofList rest)
  (flags.find? fun f => f.name == name).map fun f => (f, value)

-- An argument by itself: a word, or options of which the last may still want a value.
inductive Argument where
  | word
  | separator
  | options (complete : List Item) (wants : Option String) (immediate : Bool)

def argument? (flags : List Flag) (arg : String) : Option Argument :=
  match arg.toList with
  | ['-', '-'] => some .separator
  | '-' :: '-' :: cs => do
    match ← long? flags cs with
    | (f, some value) =>
      if f.takesValue then some (.options [.option f.name value] none false) else none
    | (f, none) =>
      if f.takesValue then some (.options [] (some f.name) false)
      else some (.options [.option f.name ""] none f.immediate)
  | '-' :: c :: cs => do
    let (fs, last) ← cluster flags (c :: cs)
    let plain := fs.map fun f => Item.option f.name ""
    let immediate := fs.any Flag.immediate
    match last with
    | some (f, some value) => some (.options (plain ++ [.option f.name value]) none immediate)
    | some (f, none) => some (.options plain (some f.name) immediate)
    | none => some (.options plain none immediate)
  | _ => some .word

-- Whether an argument can be the value of the option before it.
def isValue (arg : String) : Bool :=
  match arg.toList with
  | '-' :: _ :: _ => false
  | _ => true

-- Takes arguments in, up to the first word if `stops`, and gives those behind it.
def items (flags : List Flag) (stops : Bool) : List String → Option (List Item × List String)
  | [] => some ([], [])
  | arg :: rest =>
    match argument? flags arg with
    | none => none
    | some .separator => if stops then none else some (rest.map Item.word, [])
    | some .word =>
      if stops then some ([.word arg], rest)
      else (items flags stops rest).map fun r => (.word arg :: r.1, r.2)
    | some (.options given none true) => some (given, [])
    | some (.options given none false) =>
      (items flags stops rest).map fun r => (given ++ r.1, r.2)
    | some (.options given (some name) _) =>
      match rest with
      | [] => none
      | value :: rest' =>
        if isValue value then
          (items flags stops rest').map fun r => (given ++ .option name value :: r.1, r.2)
        else none

-- The values given for an option, in order.
def valuesOf (name : String) (is : List Item) : List String :=
  is.filterMap fun
    | .option n value => if n == name then some value else none
    | .word _ => none

def wordsOf (is : List Item) : List String :=
  is.filterMap fun
    | .word s => some s
    | .option .. => none

-- The value of an option that may be given once.
def single? {α : Type} : List α → Option (Option α)
  | [] => some none
  | [a] => some (some a)
  | _ => none

-- The path given for an option or as a word; an empty one is none.
def path? (values : List String) : Option (Option String) :=
  match single? values with
  | some (some p) => if p = "" then none else some (some p)
  | r => r

-- The values between commas, of all times that an option was given.
def listed {α : Type} (read : String → Option α) (values : List String) : Option (List α) :=
  (values.flatMap fun v => v.splitOn ",").mapM read

-- A port. Zero may be written as a negative number.
def port? (s : String) : Option UInt16 :=
  match s.toList with
  | '-' :: ds => if Numeral.read? 10 ds = some 0 then some 0 else none
  | cs => (Numeral.count? 10 65535 cs).map UInt16.ofNat

def kind? (s : String) : Option Kind :=
  (Kind.parse s).toOption

-- What every command asks for when nothing is said.
def defaultConfig : String := "vigil.toml"

def defaultTasks : List Kind := [.cpu, .sys]

-- The commands and what they are for.
def commands : List (String × String) :=
  [("run", "Start the sentinel scheduler and run until Ctrl-C"),
    ("sample", "Collect one snapshot and print it as JSON"),
    ("validate", "Load and validate the configuration, then print a job summary"),
    ("init", "Write a default configuration file"),
    ("help", "Print this message or the help of the given subcommand(s)")]

-- The options of a command beside those that stand anywhere.
def flagsOf? (command : String) : Option (List Flag) :=
  if command = "run" ∨ command = "validate" then some []
  else if command = "sample" then some [tasksFlag, portsFlag, nodeFlag]
  else if command = "init" then some [forceFlag]
  else none

def isGiven (name : String) (is : List Item) : Bool :=
  !(valuesOf name is).isEmpty

-- The command with what was given behind it.
def command? (name : String) (is : List Item) : Option Command :=
  match name, wordsOf is with
  | "run", [] => some .run
  | "validate", [] => some .validate
  | "sample", [] => do
    let tasks ← listed kind? (valuesOf "tasks" is)
    let ports ← listed port? (valuesOf "ports" is)
    let node ← single? (valuesOf "node" is)
    some (.sample (if isGiven "tasks" is then tasks else defaultTasks) ports node)
  | "init", words => do
    let path ← path? words
    let force ← single? (valuesOf "force" is)
    some (.init path force.isSome)
  | _, _ => none

-- What the options that stand anywhere are, at one side of the command.
def globals? (is : List Item) : Option (Bool × Option String) := do
  let verbose ← single? (valuesOf "verbose" is)
  let config ← path? (valuesOf "config" is)
  some (verbose.isSome, config)

-- What help is asked for by the words behind the command for it: one command at most.
def topic? : List String → Option Demand
  | [] => some (.help none)
  | [name] => if commands.any fun c => c.1 == name then some (.help (some name)) else none
  | _ => none

-- What the arguments ask for; none if they cannot be understood. An option behind the command
-- goes before the same one in front of it.
def demand? (args : List String) : Option Demand := do
  let (front, behind) ← items (versionFlag :: globalFlags) true args
  let (verbose, config) ← globals? front
  if isGiven "help" front then some (.help none)
  else if isGiven "version" front then some .version
  else match wordsOf front with
    | [name] =>
      if name = "help" then topic? behind
      else
        let (is, _) ← items ((← flagsOf? name) ++ globalFlags) false behind
        let (verbose', config') ← globals? is
        let command ← command? name is
        if isGiven "help" is then some (.help (some name))
        else some (.invoke ⟨verbose || verbose', (config'.or config).getD defaultConfig, command⟩)
    | _ => none

end MetricRelay.CommandLine
