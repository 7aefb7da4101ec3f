import MetricRelay.Clock
import MetricRelay.Delivery.Request

namespace MetricRelay

-- How a destination meets a request.
inductive Reaction where
  | status (code : UInt16)
  | refused
  -- an answer so many milliseconds later
  | delayed (millis : Nat) (code : UInt16)
  -- no answer ever
  | silent
deriving DecidableEq

-- The reactions of destinations by URL. All others accept what they get.
structure Network where
  reactions : List (String × Reaction)

namespace Network

def calm : Network :=
  ⟨[]⟩

def reaction (n : Network) (url : String) : Reaction :=
  ((n.reactions.find? fun e => e.1 == url).map (·.2)).getD (.status 200)

def set (n : Network) (url : String) (r : Reaction) : Network :=
  ⟨(url, r) :: n.reactions.filter fun e => e.1 != url⟩

end Network

namespace Reaction

def refusal (url : String) : Fault :=
  .connect url "connection refused"

-- What comes of a request to the URL, if anything, and after how many milliseconds.
def answer? (url : String) : Reaction → Option (Nat × Except Fault Response)
  | status code => some (0, .ok ⟨code, ""⟩)
  | refused => some (0, .error (refusal url))
  | delayed millis code => some (millis, .ok ⟨code, ""⟩)
  | silent => none

-- What somebody sees who waits `patience` milliseconds at most, and how long that takes.
def within (patience : Nat) (url : String) (r : Reaction) : Option (Except Fault Response) × Nat :=
  match r.answer? url with
  | some (millis, a) => if millis ≤ patience then (some a, millis) else (none, patience)
  | none => (none, patience)

end Reaction

end MetricRelay
