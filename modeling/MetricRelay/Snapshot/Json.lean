import MetricRelay.Json.Printer
import MetricRelay.Json.Reader
import MetricRelay.Snapshot.Document

namespace MetricRelay.Snapshot

-- The text in which a snapshot travels.
def toJson (s : Snapshot) : String :=
  Json.render s.toTree

def ofJson? (text : String) : Option Snapshot := do
  ofTree? Json.dialect (← Json.read? text)

end MetricRelay.Snapshot
