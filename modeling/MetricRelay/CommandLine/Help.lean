import MetricRelay.CommandLine.Arguments

namespace MetricRelay.CommandLine

-- How an option is written: its letter or room for one, its name, and the name in capitals for
-- the value.
def Flag.form (f : Flag) : String :=
  (match f.letter with
    | some c => String.ofList ['-', c] ++ ", "
    | none => "    ") ++
    "--" ++ f.name ++ if f.takesValue then " <" ++ f.name.toUpper ++ ">" else ""

-- Lines of two columns. The first is as wide as its widest entry.
def table (rows : List (String × String)) : List String :=
  let width := ((rows.map fun r => r.1.length).max?).getD 0
  rows.map fun r =>
    "  " ++ r.1 ++ String.ofList (List.replicate (width - r.1.length) ' ') ++ "  " ++ r.2

-- A heading with a table below, behind a blank line.
def titled (title : String) (rows : List (String × String)) : List String :=
  if rows.isEmpty then [] else ["", title ++ ":"] ++ table rows

def optionRows (flags : List Flag) : List (String × String) :=
  flags.map fun f => (f.form, f.purpose)

def programHelp : List String :=
  ["Periodic metric sampling and export", "", "Usage: vigil [OPTIONS] <COMMAND>"] ++
    titled "Commands" commands ++
    titled "Options" (optionRows [verboseFlag, configFlag, helpFlag, versionFlag])

-- What a command takes: words, which it may lack, and options in the order in which they are told.
def takes (command : String) : List (String × String) × List Flag :=
  match command with
  | "sample" => ([], [tasksFlag, verboseFlag, configFlag, portsFlag, nodeFlag, helpFlag])
  | "init" =>
    ([("[PATH]", "Destination (defaults to --config)")],
      [forceFlag, verboseFlag, configFlag, helpFlag])
  | "help" => ([("[COMMAND]...", "Print help for the subcommand(s)")], [])
  | _ => ([], [verboseFlag, configFlag, helpFlag])

def commandHelp (command purpose : String) : List String :=
  let (words, flags) := takes command
  [purpose, "",
    "Usage: vigil " ++ command ++ (if flags.isEmpty then "" else " [OPTIONS]") ++
      String.join (words.map fun w => " " ++ w.1)] ++
    titled "Arguments" words ++ titled "Options" (optionRows flags)

-- The help about a command, or else about the program.
def helpLines (command : Option String) : List String :=
  match commands.find? fun c => command == some c.1 with
  | some (name, purpose) => commandHelp name purpose
  | none => programHelp

end MetricRelay.CommandLine
