import MetricRelay.Delivery.Request
import MetricRelay.Delivery.WriteRequest
import MetricRelay.Settings.Basic
import MetricRelay.Snappy.Matching
import MetricRelay.Snapshot.Json
import MetricRelay.Text.Base64
import MetricRelay.Text.Quoted

namespace MetricRelay

-- What is shown of a subscriber where its credentials must not be seen.
def Subscriber.label (s : Subscriber) : String :=
  "Destination \x7b url: " ++ String.ofList (Text.quoted s.url.toList) ++ ", kind: " ++
    s.kind.heading ++ " \x7d"

-- Turns a snapshot into the request that takes it to a subscriber, at a given moment.
abbrev Exporter := Timestamp → Subscriber → Snapshot → Ending Request

namespace Exporter

-- The value of the header that carries a user name and a password.
def basicAuth (c : Credentials) : String :=
  "Basic " ++ String.ofList (Text.Base64.encode (Text.bytes (c.username ++ ":" ++ c.password)))

-- Adds the credentials of the subscriber, if they are to be used.
def withAuth (s : Subscriber) (r : Request) : Request :=
  match s.enabledAuth with
  | some c => r.addHeader "Authorization" (basicAuth c)
  | none => r

-- Sends the snapshot as JSON.
def jsonRequest (s : Subscriber) (x : Snapshot) : Request :=
  withAuth s ⟨s.url, [("Content-Type", "application/json;charset=UTF-8")], Text.bytes x.toJson⟩

def json : Exporter :=
  fun _ s x => .value (jsonRequest s x)

-- The headline of a snapshot as a series with a single sample, named for the node.
def headlineRequest (x : Snapshot) (timestamp : Int64) : WriteRequest where
  series := [⟨[⟨"__name__", x.node⟩], [⟨x.headline.toBits, timestamp⟩]⟩]
  families := [⟨0, x.node, "helper", ""⟩]

-- The body that carries a write request.
def packed (r : WriteRequest) : Except Fault (List UInt8) :=
  let bytes := r.encode
  if Snappy.fits bytes.length then .ok (Snappy.compress bytes)
  else .error (.encoding ("snappy compression: snappy: input buffer (size = " ++
    toString bytes.length ++ ") is larger than allowed (size = " ++
    toString Snappy.mostBytes ++ ")"))

def remoteHeaders : List (String × String) :=
  [("Content-Encoding", "snappy"), ("Content-Type", "application/x-protobuf"),
    ("X-Prometheus-Remote-Write-Version", "0.1.0")]

def remoteRequest (now : Timestamp) (s : Subscriber) (x : Snapshot) : Except Fault Request := do
  let body ← packed (headlineRequest x (Int64.ofInt now.millis))
  return withAuth s ⟨s.url, remoteHeaders, body⟩

-- Sends the headline to a store of time series. The sample bears the time of sending.
def remoteWrite : Exporter :=
  fun now s x => .ofExcept (remoteRequest now s x)

-- Stands in for an exporter that cannot encode anything.
def broken : Exporter :=
  fun _ _ _ => .fault (.encoding "unencodable")

-- Stands in for an exporter with a defect.
def panicking : Exporter :=
  fun _ _ _ => .panic "encode"

-- Stands in for an exporter with a body that is always the same.
def fixed : Exporter :=
  fun _ s x => .value ⟨s.url, [("X-Node", x.node)], Text.bytes "fixed"⟩

end Exporter

-- The exporter for each kind of subscriber.
abbrev Exporters := SubscriberKind → Exporter

def Exporters.standard : Exporters
  | .http => Exporter.json
  | .prometheus => Exporter.remoteWrite

def Exporters.replace (kind : SubscriberKind) (e : Exporter) (es : Exporters) : Exporters :=
  fun k => if k = kind then e else es k

end MetricRelay
