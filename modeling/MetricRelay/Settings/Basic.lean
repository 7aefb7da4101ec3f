import MetricRelay.Clock
import MetricRelay.Delivery.Breaker
import MetricRelay.Kind

namespace MetricRelay

-- In which form a subscriber wants its snapshots.
inductive SubscriberKind where
  | http
  | prometheus
deriving DecidableEq

def SubscriberKind.name : SubscriberKind → String
  | http => "http"
  | prometheus => "prometheus"

def SubscriberKind.heading : SubscriberKind → String
  | http => "Http"
  | prometheus => "Prometheus"

def SubscriberKind.ofName? (s : String) : Option SubscriberKind :=
  [SubscriberKind.http, SubscriberKind.prometheus].find? fun k => k.name == s

-- A user name and a password, which may be switched off.
structure Credentials where
  enable : Bool
  username : String
  password : String
deriving DecidableEq

-- Where snapshots go.
structure Subscriber where
  url : String
  kind : SubscriberKind
  auth : Option Credentials
deriving DecidableEq

-- The credentials to use, if there are any and they are switched on.
def Subscriber.enabledAuth (s : Subscriber) : Option Credentials :=
  s.auth.filter Credentials.enable

-- What the failures of a destination are counted under.
def Subscriber.key (s : Subscriber) : String :=
  s.url

-- What to collect, for whom, how often and how many times. A count of -1 sets no limit.
structure Sentinel where
  tasks : List Kind
  subscribers : List Subscriber
  count : Int64
  interval : UInt64
  listenedPorts : List UInt16
deriving DecidableEq

namespace Sentinel

-- An entry that gives no job anything to do is allowed and left aside.
def isActive (s : Sentinel) : Bool :=
  !s.tasks.isEmpty && !s.subscribers.isEmpty

def isUnbounded (s : Sentinel) : Bool :=
  s.count ≤ 0

def default : Sentinel :=
  ⟨[], [], -1, 10, []⟩

end Sentinel

structure LogSettings where
  level : String
deriving DecidableEq

structure BreakerSettings where
  failureThreshold : UInt32
  cooldownSecs : UInt64
deriving DecidableEq

structure SamplingSettings where
  delayMs : UInt64
deriving DecidableEq

structure HttpSettings where
  timeoutSecs : UInt64
deriving DecidableEq

structure SchedulerSettings where
  advanceOnFailure : Bool
deriving DecidableEq

-- The settings of a node.
structure Settings where
  name : String
  workThreads : UInt64
  log : LogSettings
  breaker : BreakerSettings
  sampling : SamplingSettings
  http : HttpSettings
  scheduler : SchedulerSettings
  sentinel : List Sentinel
deriving DecidableEq

def LogSettings.default : LogSettings := ⟨"info"⟩

def BreakerSettings.default : BreakerSettings := ⟨5, 60⟩

def SamplingSettings.default : SamplingSettings := ⟨1000⟩

def HttpSettings.default : HttpSettings := ⟨10⟩

def SchedulerSettings.default : SchedulerSettings := ⟨false⟩

def BreakerSettings.policy (b : BreakerSettings) : BreakerPolicy :=
  .make b.failureThreshold (seconds b.cooldownSecs)

namespace Settings

def default : Settings where
  name := "vigil-node"
  workThreads := 2
  log := .default
  breaker := .default
  sampling := .default
  http := .default
  scheduler := .default
  sentinel := []

def active (s : Settings) : List Sentinel :=
  s.sentinel.filter Sentinel.isActive

end Settings

end MetricRelay
