import Routing.Files.MediaType
import Routing.Text.Utf8

/-!
# Directories

A directory as a list of entries, each a path of names with the content of a file, or none for a
directory. The directories on the way to an entry exist too. What type a file is taken for by its
name is not settled here: any guess may come with a directory.

* `Directory.look` — what a path leads to.
-/

namespace Routing

structure Directory where
  entries : List (List Text × Option Bytes) := []
  /-- The media type that the file at a path is taken for. -/
  guess : Text → String := MediaType.ofPath

/-- What is found at a path. -/
inductive Found where
  | missing
  | directory
  | file (content : Bytes)
  /-- The path cannot be followed: it goes through a file, or it or one of its names is too long. -/
  | failure
  deriving DecidableEq, Repr

namespace Directory

/-- The longest name there may be, in bytes. -/
def nameLimit : Nat := 255

/-- A path must stay below this size, in bytes. -/
def pathLimit : Nat := 4096

/-- The directory with these files, each with its path; without content it is a directory. -/
def ofFiles (files : List (Text × Option Bytes)) : Directory :=
  { entries := files.map fun (path, content) =>
      ((Text.pieces '/' path).filter (· ≠ []), content) }

def isDirectory (d : Directory) (names : List Text) : Bool :=
  names = [] || d.entries.any fun entry =>
    names.isPrefixOf entry.1 && (entry.1 != names || entry.2.isNone)

def content? (d : Directory) (names : List Text) : Option Bytes :=
  (d.entries.find? fun entry => entry.1 = names).bind Prod.snd

/-- Follows names from a directory that exists; a single dot stays, two dots go back. Nothing is
known of what lies outside. -/
def follow (d : Directory) (here : List Text) : List Text → Found
  | [] => .directory
  | name :: rest =>
    if name = [] ∨ name = ['.'] then d.follow here rest
    else if name = ['.', '.'] then
      match here with
      | [] => .missing
      | _ :: _ => d.follow here.dropLast rest
    else if nameLimit < Text.size name then .failure
    else
      let next := here ++ [name]
      if d.isDirectory next then d.follow next rest
      else
        match d.content? next with
        | none => .missing
        | some content => if rest = [] then .file content else .failure

/-- What a path leads to. A path that opens with a slash leads outside, where nothing is known. -/
def look (d : Directory) (path : Text) : Found :=
  if pathLimit ≤ Text.size path ∨ '\x00' ∈ path then .failure
  else
    match path with
    | [] => .missing
    | '/' :: _ => .missing
    | path => d.follow [] (Text.pieces '/' path)

end Directory

end Routing
