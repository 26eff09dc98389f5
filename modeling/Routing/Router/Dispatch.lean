import Routing.Router.Sealed

/-!
# Dispatching requests

* `Sealed.dispatch` — the response to a request: that of the route it matches, or a fallback.
-/

namespace Routing

variable [Regex.Engine]

namespace Response

/-- A short answer in plain text. -/
def plain (status : Nat) (body : String) : Response :=
  { status := status
    headers :=
      [⟨"content-type".toList, "text/plain; charset=utf-8".toList⟩,
       ⟨"x-content-type-options".toList, "nosniff".toList⟩]
    body := Text.Utf8.encode body.toList }

def notFound : Response := plain 404 "404 page not found\n"

def notAllowed : Response := plain 405 "Method Not Allowed\n"

def serverError : Response := plain 500 "Internal Server Error\n"

def allowName : Text := ['a', 'l', 'l', 'o', 'w']

/-- Lists the allowed methods in a header, if the list can be written into one. -/
def setAllow (r : Response) (allow : Text) : Response :=
  if isHeaderValue allow then r.setHeader allowName allow else r

end Response

namespace Sealed

def answerNotFound (s : Sealed) (req : Request) : Run Response :=
  match s.notFound with
  | some handler => handler req
  | none => .of .notFound

/-- The handler's own list of allowed methods is kept if it gives one. -/
def answerNotAllowed (s : Sealed) (req : Request) (allow : Text) : Run Response := do
  let res ←
    match s.notAllowed with
    | some handler => handler req
    | none => .of .notAllowed
  return if res.hasHeader Response.allowName then res else res.setAllow allow

def answerFile (s : Sealed) (disk : Directory) (req : Request) : Run Response :=
  match s.files with
  | none => s.answerNotFound req
  | some server =>
    match server.serve disk.guess disk req.uri.path with
    | .response r => .of r
    | .notFound => s.answerNotFound req
    | .failure => .of .serverError

/-- Answers a request as it was resolved. -/
def answer (s : Sealed) (disk : Directory) (req : Request) : Resolution → Run Response
  | .found m => m.handler { req with params := some m.params }
  | .options allow => .of (({} : Response).setAllow allow)
  | .staticFile => s.answerFile disk req
  | .notAllowed allow => s.answerNotAllowed req allow
  | .notFound => s.answerNotFound req

/-- Runs a request as it was resolved. -/
def dispatch (s : Sealed) (disk : Directory) (req : Request) : Served Response :=
  let resolved := s.resolve req.method req.uri.path
  ⟨resolved.run >>= s.answer disk req, resolved.router⟩

end Sealed

end Routing
