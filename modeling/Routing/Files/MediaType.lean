import Routing.Text

/-!
# Media types

The type of a file is guessed from the extension of its name, in either case. The table has common
extensions only; a file server works with any other guess as well.

* `MediaType.ofPath` — the type of the file at a path.
-/

namespace Routing.MediaType

def unknown : String := "application/octet-stream"

def byExtension : List (String × String) :=
  [("css", "text/css"), ("html", "text/html"), ("htm", "text/html"), ("js", "text/javascript"),
   ("mjs", "application/javascript"), ("json", "application/json"), ("txt", "text/plain"),
   ("xml", "text/xml"), ("png", "image/png"), ("jpg", "image/jpeg"), ("jpeg", "image/jpeg"),
   ("gif", "image/gif"), ("svg", "image/svg+xml"), ("ico", "image/x-icon"),
   ("pdf", "application/pdf"), ("zip", "application/zip"), ("gz", "application/gzip"),
   ("tar", "application/x-tar"), ("csv", "text/csv"), ("md", "text/markdown"),
   ("mp3", "audio/mpeg"), ("mp4", "video/mp4"), ("webp", "image/webp"),
   ("woff", "application/font-woff"), ("woff2", "font/woff2"), ("wasm", "application/wasm")]

/-- The last name of a path. -/
def fileName (path : Text) : Text := (path.reverse.takeWhile (· != '/')).reverse

/-- What stands behind the last dot of a name. A name that has a dot only as its first character
has no extension. -/
def extension? (name : Text) : Option Text :=
  match name.reverse.dropWhile (· != '.') with
  | [] | [_] => none
  | _ => some (name.reverse.takeWhile (· != '.')).reverse

def ofPath (path : Text) : String :=
  match extension? (fileName path) with
  | none => unknown
  | some e => (byExtension.lookup (String.ofList (e.map Char.toLower))).getD unknown

end Routing.MediaType
