import MetricRelay.Complaint

namespace MetricRelay

-- Everything that can go wrong in a node, by its cause. `other` carries a cause that belongs to
-- none of the areas.
inductive Fault where
  | provider (text : String)
  | sampling (text : String)
  | connect (url reason : String)
  | httpStatus (url : String) (status : UInt16)
  | transport (text : String)
  | encoding (text : String)
  | config (text : String)
  | noActiveJobs
  | scheduler (text : String)
  | listener (name reason : String)
  | io (text : String)
  | serialization (c : Complaint)
  | other (text : String)
deriving DecidableEq

namespace Fault

-- The line shown to a person.
def message : Fault → String
  | provider text => "Metrics provider error: " ++ text
  | sampling text => "Sampling failed: " ++ text
  | connect url reason => "Can not connect to " ++ url ++ ": " ++ reason
  | httpStatus url status => "Unexpected HTTP status " ++ toString status.toNat ++ " from " ++ url
  | transport text => "Transport error: " ++ text
  | encoding text => "Encoding error: " ++ text
  | config text => "Configuration error: " ++ text
  | noActiveJobs => "No valid sentinel configuration"
  | scheduler text => "Scheduler error: " ++ text
  | listener name reason => "Shutdown listener '" ++ name ++ "' failed: " ++ reason
  | io text => "I/O error: " ++ text
  | serialization c => "Serialization error: " ++ c.message
  | other text => text

-- Whether the other side could not be reached at all, as opposed to answering badly.
def isConnectivity : Fault → Bool
  | connect .. | io _ => true
  | _ => false

end Fault

-- How a call into foreign code ends: with a value, with a fault that it reports, or by breaking
-- off with a panic message.
inductive Ending (α : Type) where
  | value (a : α)
  | fault (f : Fault)
  | panic (text : String)

namespace Ending

variable {α β : Type}

def ofExcept : Except Fault α → Ending α
  | .ok a => value a
  | .error f => fault f

def map (f : α → β) : Ending α → Ending β
  | value a => value (f a)
  | fault e => fault e
  | panic t => panic t

-- Goes on with the value, if there is one.
def andThen (e : Ending α) (next : α → Ending β) : Ending β :=
  match e with
  | value a => next a
  | fault f => fault f
  | panic t => panic t

end Ending

end MetricRelay
