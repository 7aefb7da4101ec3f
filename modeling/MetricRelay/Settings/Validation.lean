import MetricRelay.Settings.Basic
import MetricRelay.Text.Numeral

namespace MetricRelay.Settings

-- What keeps settings from being used. Entries are counted from zero.
inductive Problem where
  | blankName
  | noThreshold
  | noInterval (entry : Nat)
  | badCount (entry : Nat) (count : Int64)
  | portZero (entry : Nat)
  | foreignUrl (entry : Nat) (url : String)
  | noUsername (entry : Nat) (url : String)
deriving DecidableEq

namespace Problem

def place (entry : Nat) : String :=
  "sentinel[" ++ toString entry ++ "]"

def message : Problem → String
  | blankName => "name must not be empty"
  | noThreshold => "breaker.failure_threshold must be at least 1"
  | noInterval entry => place entry ++ ".interval must be positive"
  | badCount entry count =>
    place entry ++ ".count must be -1 or positive, got " ++ toString count.toInt
  | portZero entry => place entry ++ ".listened_ports must not contain port 0"
  | foreignUrl entry url =>
    place entry ++ " subscriber url must be http(s): '" ++ url ++ "'"
  | noUsername entry url =>
    place entry ++ " subscriber '" ++ url ++ "' enables auth without a username"

end Problem

-- Whether the text begins as a URL of the web does.
def isWebUrl (url : List Char) : Bool :=
  "http://".toList.isPrefixOf url || "https://".toList.isPrefixOf url

-- The URL is judged without the blanks around it.
def subscriberProblem? (entry : Nat) (s : Subscriber) : Option Problem :=
  if !isWebUrl (Text.trim s.url.toList) then some (.foreignUrl entry s.url)
  else match s.enabledAuth with
    | some auth => if auth.username = "" then some (.noUsername entry s.url) else none
    | none => none

def entryProblem? (entry : Nat) (s : Sentinel) : Option Problem :=
  if s.interval = 0 then some (.noInterval entry)
  else if s.count = 0 ∨ s.count < -1 then some (.badCount entry s.count)
  else if s.listenedPorts.contains 0 then some (.portZero entry)
  else s.subscribers.findSome? (subscriberProblem? entry)

-- The first problem of entries of which the first has the number `entry`.
def entriesProblem? : Nat → List Sentinel → Option Problem
  | _, [] => none
  | entry, s :: rest => (entryProblem? entry s).or (entriesProblem? (entry + 1) rest)

def problem? (s : Settings) : Option Problem :=
  if Text.trim s.name.toList = [] then some .blankName
  else if s.breaker.failureThreshold = 0 then some .noThreshold
  else entriesProblem? 0 s.sentinel

def validate (s : Settings) : Except Fault Unit :=
  match s.problem? with
  | some p => .error (.config p.message)
  | none => .ok ()

end MetricRelay.Settings
