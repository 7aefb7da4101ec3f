import MetricRelay.Fault

namespace MetricRelay

-- A request to post a body to a URL, ready to send.
structure Request where
  url : String
  headers : List (String × String)
  body : List UInt8
deriving DecidableEq

namespace Request

def sameName (a b : String) : Bool :=
  a.toList.map Char.toLower == b.toList.map Char.toLower

-- The value of the first header of that name; ASCII letters count in either case.
def header? (r : Request) (name : String) : Option String :=
  (r.headers.find? fun h => sameName h.1 name).map (·.2)

def addHeader (r : Request) (name value : String) : Request :=
  { r with headers := r.headers ++ [(name, value)] }

end Request

-- What a destination says to a request.
structure Response where
  status : UInt16
  body : String
deriving DecidableEq

def isSuccess (status : UInt16) : Bool :=
  200 ≤ status && status ≤ 299

def Response.isSuccess (r : Response) : Bool :=
  MetricRelay.isSuccess r.status

end MetricRelay
