import MetricRelay.Fault
import MetricRelay.Text.Bytes

namespace MetricRelay

inductive FileNode where
  | file (bytes : List UInt8)
  | directory
deriving DecidableEq

-- Why a file cannot be used.
inductive FileFault where
  | missing
  | present
  | notDirectory
  | isDirectory
  | nameTooLong
  | unnameable
  | notText
deriving DecidableEq

def FileFault.message : FileFault → String
  | missing => "No such file or directory (os error 2)"
  | present => "File exists (os error 17)"
  | notDirectory => "Not a directory (os error 20)"
  | isDirectory => "Is a directory (os error 21)"
  | nameTooLong => "File name too long (os error 36)"
  | unnameable => "file name contained an unexpected NUL byte"
  | notText => "stream did not contain valid UTF-8"

-- The files and directories of a machine, each under the names that lead to it from the root, and
-- the working directory. The directories on the way to that one need no mention.
structure Files where
  home : List String
  nodes : List (List String × FileNode)

namespace Files

def node? (t : Files) (place : List String) : Option FileNode :=
  if place.isPrefixOf t.home then some .directory
  else (t.nodes.find? fun e => e.1 == place).map (·.2)

def put (t : Files) (place : List String) (n : FileNode) : Files :=
  { t with nodes := t.nodes.filter (fun e => e.1 != place) ++ [(place, n)] }

-- The longest name and the longest path, in bytes.
def longestName : Nat := 255

def longestPath : Nat := 4095

-- Follows the steps of a path from a directory. The last step may lead to where nothing is yet.
def follow (t : Files) :
    List String → List String → Except FileFault (List String × Option FileNode)
  | place, [] => .ok (place, some .directory)
  | place, step :: rest =>
    if step = "" ∨ step = "." then t.follow place rest
    else if step = ".." then t.follow place.dropLast rest
    else if longestName < step.utf8ByteSize then .error .nameTooLong
    else match t.node? (place ++ [step]) with
      | some .directory => t.follow (place ++ [step]) rest
      | found =>
        if rest = [] then .ok (place ++ [step], found)
        else if found = none then .error .missing
        else .error .notDirectory

-- The steps of a path that is written with slashes. A slash in front makes a blank first step.
def steps (path : String) : List String :=
  path.splitOn "/"

-- Where steps start: behind a blank one at the root.
def origin (t : Files) (steps : List String) : List String :=
  if steps.head? = some "" then [] else t.home

-- Follows the steps of a path, which must be fit for one.
def walk (t : Files) (steps : List String) : Except FileFault (List String × Option FileNode) :=
  if steps.any fun s => s.toList.contains (Char.ofNat 0) then .error .unnameable
  else if longestPath < ("/".intercalate steps).utf8ByteSize then .error .nameTooLong
  else t.follow (t.origin steps) steps

def locate (t : Files) (path : String) : Except FileFault (List String × Option FileNode) :=
  if path = "" then .error .missing else t.walk (steps path)

-- Where to write. A path with a slash at its end leads to no file, whatever is there.
def target (t : Files) (path : String) : Except FileFault (List String × Option FileNode) :=
  match (steps path).reverse.dropWhile (· == "") with
  | [] => t.locate path
  | _ :: front =>
    if path.endsWith "/" then (t.walk (front.reverse ++ ["."])).map fun r => (r.1, some .directory)
    else t.locate path

def has (t : Files) (path : String) : Bool :=
  match t.locate path with
  | .ok (_, some _) => true
  | _ => false

def read (t : Files) (path : String) : Except FileFault (List UInt8) := do
  match ← t.locate path with
  | (_, some (.file bytes)) => .ok bytes
  | (_, some .directory) => .error .isDirectory
  | (_, none) => .error .missing

def readText (t : Files) (path : String) : Except FileFault String := do
  match Text.ofBytes? (← t.read path) with
  | some s => .ok s
  | none => .error .notText

def write (t : Files) (path : String) (bytes : List UInt8) : Except FileFault Files := do
  match ← t.target path with
  | (_, some .directory) => .error .isDirectory
  | (place, _) => .ok (t.put place (.file bytes))

-- Makes one directory.
def makeDirectory (t : Files) (steps : List String) : Except FileFault Files := do
  match ← t.walk steps with
  | (_, some _) => .error .present
  | (place, none) => .ok (t.put place .directory)

-- Makes the directory, or leaves it if it is there already.
def ensureDirectory (t : Files) (steps : List String) : Except FileFault Files :=
  match t.makeDirectory steps, t.walk steps with
  | .ok t', _ => .ok t'
  | .error _, .ok (_, some .directory) => .ok t
  | .error e, _ => .error e

-- Makes a directory and those above it that are missing; the steps are in reverse.
def makeDirectories (t : Files) : List String → Except FileFault Files
  | [] => .ok t
  | last :: parents =>
    match t.ensureDirectory (last :: parents).reverse with
    | .error .missing => do (← t.makeDirectories parents).ensureDirectory (last :: parents).reverse
    | r => r

-- The path without blank steps at its end and without its last step, in reverse.
def parents (path : String) : List String :=
  ((steps path).reverse.dropWhile fun s => s == "" || s == ".").drop 1

-- Writes a file, in directories that are made if they are missing.
def writeWithParents (t : Files) (path : String) (bytes : List UInt8) : Except FileFault Files := do
  (← t.makeDirectories (parents path)).write path bytes

end Files

end MetricRelay
