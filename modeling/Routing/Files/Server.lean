import Routing.Files.Directory
import Routing.Http.Message
import Routing.Text.Percent

/-!
# Serving files

A file server maps the path of a request to a path below its root. The request path is decoded
first and split afterwards, so an escaped separator or an escaped step upwards is refused like a
plain one. Paths are text throughout, with a slash between names: a root that is not UTF-8, or has
another separator, is not covered.

* `FileServer.resolve?` — the path of the file for a request path.
* `FileServer.serve` — the response with the file.
-/

namespace Routing

structure FileServer where
  /-- The path of a directory, as UTF-8 text with slashes between names. -/
  root : Text
  /-- What request paths must open with; it is left out of the path of the file. -/
  opening : Option Text
  deriving DecidableEq, Repr

namespace FileServer

/-- With `strip`, request paths must open with the root between two slashes. -/
def new (root : Text) (strip : Bool) : FileServer :=
  ⟨root, if strip then some (['/'] ++ Text.trim '/' root ++ ['/']) else none⟩

/-- The path with one more name, behind a slash, which is the one separator. An absolute name takes
the place of the path. -/
def push (path name : Text) : Text :=
  if name.head? = some '/' then name
  else if path = [] ∨ path.getLast? = some '/' then path ++ name
  else path ++ ['/'] ++ name

/-- Pushes the names of a request path; empty names and single dots add nothing, and two dots, a
backslash or a NUL are refused. -/
def pushAll (path : Text) : List Text → Option Text
  | [] => some path
  | name :: rest =>
    if name = [] ∨ name = ['.'] then pushAll path rest
    else if name = ['.', '.'] ∨ '\\' ∈ name ∨ '\x00' ∈ name then none
    else pushAll (push path name) rest

def resolve? (s : FileServer) (path : Text) : Option Text := do
  let decoded ← Text.Percent.text? path
  let relative ←
    match s.opening with
    | some opening => Text.dropOpening? opening decoded
    | none => some decoded
  pushAll s.root (Text.pieces '/' relative)

/-- What a file server makes of a request. -/
inductive Outcome where
  | response (r : Response)
  | notFound
  | failure
  deriving DecidableEq, Repr

/-- The guessed media type of a file, if it can be written into a header. -/
def contentType (guess : Text → String) (file : Text) : Text :=
  let guessed := (guess file).toList
  if Response.isHeaderValue guessed then guessed else MediaType.unknown.toList

/-- Reads the file for a request path, and guesses its media type. Directories are not served. -/
def serve (s : FileServer) (guess : Text → String) (disk : Directory) (path : Text) : Outcome :=
  match s.resolve? path with
  | none => .notFound
  | some file =>
    match disk.look file with
    | .missing | .directory => .notFound
    | .failure => .failure
    | .file content =>
      .response
        { headers :=
            [⟨"content-type".toList, contentType guess file⟩,
             ⟨"content-length".toList, Text.ofNat content.length⟩]
          body := content }

end FileServer

end Routing
