import MetricRelay.Fault

namespace MetricRelay

-- What is thrown where something breaks off: a text, or anything else.
inductive Payload where
  | text (t : String)
  | other
deriving DecidableEq

instance : Coe String Payload :=
  ⟨.text⟩

def Payload.message : Payload → String
  | text t => t
  | other => "panic"

-- How it can go to tell somebody something.
inductive Telling where
  | done
  | fault (f : Fault)
  | panic (p : Payload)
deriving DecidableEq

-- How it goes each time that somebody is told something, by the number of times before.
structure Conduct where
  telling : Nat → Telling

namespace Conduct

-- The same every time.
def always (t : Telling) : Conduct :=
  ⟨fun _ => t⟩

def value (_ : Unit) : Conduct :=
  always .done

def fault (f : Fault) : Conduct :=
  always (.fault f)

def panic (p : Payload) : Conduct :=
  always (.panic p)

end Conduct

-- Somebody who is told when a scheduler stops, and how that goes.
structure Listener where
  name : String
  conduct : Conduct

-- What became of telling a listener: the text of the error, if there was one.
structure ListenerOutcome where
  name : String
  error : Option String
deriving DecidableEq

namespace Listener

-- How it goes with a listener that was told `told` times before.
def outcome (l : Listener) (told : Nat) : ListenerOutcome where
  name := l.name
  error := match l.conduct.telling told with
    | .done => none
    | .fault f => some f.message
    | .panic p => some p.message

end Listener

def ListenerOutcome.succeeded (o : ListenerOutcome) : Bool :=
  o.error.isNone

-- Listeners in the order in which they came, each with the number of times it was told.
structure Audience where
  members : List (Listener × Nat)

namespace Audience

def empty : Audience :=
  ⟨[]⟩

def add (a : Audience) (l : Listener) : Audience :=
  ⟨a.members ++ [(l, 0)]⟩

def size (a : Audience) : Nat :=
  a.members.length

def isEmpty (a : Audience) : Bool :=
  a.members.isEmpty

-- Tells all of them, in order. How it goes with one does not matter to the next.
def tell (a : Audience) : List ListenerOutcome × Audience :=
  (a.members.map fun m => m.1.outcome m.2, ⟨a.members.map fun m => (m.1, m.2 + 1)⟩)

-- How many times listeners were told, all together.
def calls (a : Audience) : Nat :=
  a.members.foldr (fun m n => m.2 + n) 0

end Audience

end MetricRelay
