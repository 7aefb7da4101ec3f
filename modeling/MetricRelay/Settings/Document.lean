import MetricRelay.Settings.Basic
import MetricRelay.Tree

namespace MetricRelay

open MetricRelay.Tree

namespace Kind

def toTree (k : Kind) : Tree :=
  .text k.name

def ofTree? (d : Dialect) (t : Tree) : Option Kind := do
  ofName? (← t.variant? d)

end Kind

namespace SubscriberKind

def toTree (k : SubscriberKind) : Tree :=
  .text k.name

def ofTree? (d : Dialect) (t : Tree) : Option SubscriberKind := do
  ofName? (← t.variant? d)

end SubscriberKind

namespace Credentials

def toTree (c : Credentials) : Tree :=
  .table [("enable", .flag c.enable), ("username", .text c.username),
    ("password", .text c.password)]

def ofTree? (d : Dialect) (t : Tree) : Option Credentials := do
  match ← t.fields? d ["enable", "username", "password"] with
  | [enable, username, password] =>
    some ⟨← withDefault flag? false enable, ← withDefault text? "" username,
      ← withDefault text? "" password⟩
  | _ => none

end Credentials

namespace Subscriber

def toTree (s : Subscriber) : Tree :=
  .table ([("url", .text s.url), ("type", s.kind.toTree)] ++
    match s.auth with
    | some c => [("auth", c.toTree)]
    | none => [])

def ofTree? (d : Dialect) (t : Tree) : Option Subscriber := do
  match ← t.fields? d ["url", "type", "auth"] with
  | [url, kind, auth] =>
    some ⟨← required text? url, ← withDefault (SubscriberKind.ofTree? d) .http kind,
      ← optional (Credentials.ofTree? d) auth⟩
  | _ => none

end Subscriber

namespace Sentinel

def toTree (s : Sentinel) : Tree :=
  .table ([("tasks", .list (s.tasks.map Kind.toTree)),
      ("subscribers", .list (s.subscribers.map Subscriber.toTree)),
      ("count", .ofInt64 s.count), ("interval", .ofUInt64 s.interval)] ++
    if s.listenedPorts.isEmpty then []
    else [("listened_ports", .list (s.listenedPorts.map Tree.ofUInt16))])

def ofTree? (d : Dialect) (t : Tree) : Option Sentinel := do
  match ← t.fields? d ["tasks", "subscribers", "count", "interval", "listened_ports"] with
  | [tasks, subscribers, count, interval, ports] =>
    some ⟨← withDefault (listOf? (Kind.ofTree? d)) [] tasks,
      ← withDefault (listOf? (Subscriber.ofTree? d)) [] subscribers,
      ← withDefault int64? Sentinel.default.count count,
      ← withDefault uint64? Sentinel.default.interval interval,
      ← withDefault (listOf? uint16?) [] ports⟩
  | _ => none

end Sentinel

namespace LogSettings

def toTree (s : LogSettings) : Tree :=
  .table [("level", .text s.level)]

def ofTree? (d : Dialect) (t : Tree) : Option LogSettings := do
  match ← t.fields? d ["level"] with
  | [level] => some ⟨← withDefault text? LogSettings.default.level level⟩
  | _ => none

end LogSettings

namespace BreakerSettings

def toTree (s : BreakerSettings) : Tree :=
  .table [("failure_threshold", .ofUInt32 s.failureThreshold),
    ("cooldown_secs", .ofUInt64 s.cooldownSecs)]

def ofTree? (d : Dialect) (t : Tree) : Option BreakerSettings := do
  match ← t.fields? d ["failure_threshold", "cooldown_secs"] with
  | [threshold, cooldown] =>
    some ⟨← withDefault uint32? BreakerSettings.default.failureThreshold threshold,
      ← withDefault uint64? BreakerSettings.default.cooldownSecs cooldown⟩
  | _ => none

end BreakerSettings

namespace SamplingSettings

def toTree (s : SamplingSettings) : Tree :=
  .table [("delay_ms", .ofUInt64 s.delayMs)]

def ofTree? (d : Dialect) (t : Tree) : Option SamplingSettings := do
  match ← t.fields? d ["delay_ms"] with
  | [delay] => some ⟨← withDefault uint64? SamplingSettings.default.delayMs delay⟩
  | _ => none

end SamplingSettings

namespace HttpSettings

def toTree (s : HttpSettings) : Tree :=
  .table [("timeout_secs", .ofUInt64 s.timeoutSecs)]

def ofTree? (d : Dialect) (t : Tree) : Option HttpSettings := do
  match ← t.fields? d ["timeout_secs"] with
  | [timeout] => some ⟨← withDefault uint64? HttpSettings.default.timeoutSecs timeout⟩
  | _ => none

end HttpSettings

namespace SchedulerSettings

def toTree (s : SchedulerSettings) : Tree :=
  .table [("advance_on_failure", .flag s.advanceOnFailure)]

def ofTree? (d : Dialect) (t : Tree) : Option SchedulerSettings := do
  match ← t.fields? d ["advance_on_failure"] with
  | [advance] =>
    some ⟨← withDefault flag? SchedulerSettings.default.advanceOnFailure advance⟩
  | _ => none

end SchedulerSettings

namespace Settings

def toTree (s : Settings) : Tree :=
  .table [("name", .text s.name), ("work_threads", .ofUInt64 s.workThreads),
    ("log", s.log.toTree), ("breaker", s.breaker.toTree), ("sampling", s.sampling.toTree),
    ("http", s.http.toTree), ("scheduler", s.scheduler.toTree),
    ("sentinel", .list (s.sentinel.map Sentinel.toTree))]

def ofTree? (d : Dialect) (t : Tree) : Option Settings := do
  match ← t.fields? d ["name", "work_threads", "log", "breaker", "sampling", "http", "scheduler",
      "sentinel"] with
  | [name, threads, log, breaker, sampling, http, scheduler, sentinel] =>
    some {
      name := ← withDefault text? Settings.default.name name
      workThreads := ← withDefault uint64? Settings.default.workThreads threads
      log := ← withDefault (LogSettings.ofTree? d) .default log
      breaker := ← withDefault (BreakerSettings.ofTree? d) .default breaker
      sampling := ← withDefault (SamplingSettings.ofTree? d) .default sampling
      http := ← withDefault (HttpSettings.ofTree? d) .default http
      scheduler := ← withDefault (SchedulerSettings.ofTree? d) .default scheduler
      sentinel := ← withDefault (listOf? (Sentinel.ofTree? d)) [] sentinel
    }
  | _ => none

end Settings

end MetricRelay
