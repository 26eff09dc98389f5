import Routing.Http.Method
import Routing.Http.Uri
import Routing.Params
import Routing.Text.Utf8

/-!
# Requests and responses

* `Request` — what a handler is given; the router attaches the parameters.
* `Response` — what it answers. Header names are in lower case.
-/

namespace Routing

structure Request where
  method : Method
  uri : Uri
  body : Bytes := []
  params : Option Params := none

structure Header where
  name : Text
  value : Text
  deriving DecidableEq, Repr

structure Response where
  status : Nat := 200
  headers : List Header := []
  body : Bytes := []
  deriving DecidableEq, Repr

namespace Response

def hasHeader (r : Response) (name : Text) : Bool := r.headers.any fun h => h.name = name

/-- Adds a header behind those that are there. -/
def appendHeader (r : Response) (name value : Text) : Response :=
  { r with headers := r.headers ++ [⟨name, value⟩] }

/-- Puts a header in the place of all others of its name. -/
def setHeader (r : Response) (name value : Text) : Response :=
  { r with headers := r.headers.filter (·.name ≠ name) ++ [⟨name, value⟩] }

/-- A value that can be written into a header: visible ASCII characters, blanks and tabs. -/
def isHeaderValue (value : Text) : Bool :=
  value.all fun c => c == '\t' || (32 ≤ c.toNat && c.toNat < 127)

end Response

end Routing
