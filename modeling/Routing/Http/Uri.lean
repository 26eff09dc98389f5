import Routing.Text

/-!
# Request targets

The target of a request is a path with perhaps a query, a star, an authority alone, or a whole
address with scheme and authority. Only its path matters for routing: what stands before a
question mark or a number sign.

* `Uri.ofText?` — the target with this text, if it is one.
* `Uri.path` — its path.
-/

namespace Routing

structure Uri where
  text : Text
  path : Text
  deriving DecidableEq, Repr

namespace Uri

/-- A character a path may hold as it is: what need not be escaped, what is beyond ASCII, and a
few that clients send unescaped all the same. -/
def isPathChar (c : Char) : Bool :=
  let n := c.toNat
  n == 0x21 || (0x24 ≤ n && n ≤ 0x3B) || n == 0x3D || (0x40 ≤ n && n ≤ 0x5F) ||
    (0x61 ≤ n && n ≤ 0x7E) || n == 0x22 || 0x80 ≤ n

def isQueryChar (c : Char) : Bool :=
  let n := c.toNat
  n == 0x21 || (0x24 ≤ n && n ≤ 0x3B) || n == 0x3D || (0x3F ≤ n && n ≤ 0x7E) || 0x80 ≤ n

/-- A character that may stand in an authority or separates it from what follows. -/
def isAuthorityChar (c : Char) : Bool :=
  c.isAlphanum ||
    ['!', '#', '$', '&', '\'', '(', ')', '*', '+', ',', '-', '.', '/', ':', ';', '=', '?', '@',
      '[', ']', '_', '~'].contains c

def isSchemeChar (c : Char) : Bool := c.isAlphanum || ['+', '-', '.', '~'].contains c

/-- The text in front of the first number sign. -/
def dropFragment (t : Text) : Text := t.takeWhile (· != '#')

/-- The path of a text that starts where a path does: up to the query or the fragment. The text
may be empty, and so may the path. -/
def pathOf? (t : Text) : Option Text :=
  let path := t.takeWhile fun c => c != '?' && c != '#'
  if !path.all isPathChar then none
  else
    match t.dropWhile fun c => c != '?' && c != '#' with
    | '?' :: query => if (dropFragment query).all isQueryChar then some path else none
    | _ => some path

/-- What was seen of an authority. A colon starts a port unless brackets or a user name follow,
and a percent sign is for user names only. -/
structure Authority where
  colons : Nat := 0
  opened : Bool := false
  closed : Bool := false
  percent : Bool := false
  /-- The last character was the sign behind a user name. -/
  user : Bool := false

def Authority.step (a : Authority) (c : Char) : Option Authority :=
  let a := { a with user := false }
  match c with
  | ':' => if 8 ≤ a.colons then none else some { a with colons := a.colons + 1 }
  | '[' => if a.percent || a.opened then none else some { a with opened := true }
  | ']' =>
    if !a.opened || a.closed then none
    else some { a with closed := true, colons := 0, percent := false }
  | '@' => some { a with colons := 0, percent := false, user := true }
  | '%' => some { a with percent := true }
  | c => if isAuthorityChar c then some a else none

/-- The authority that opens the text, and what follows it. -/
def authority? (t : Text) : Option (Text × Text) := do
  let isEnd (c : Char) : Bool := c == '/' || c == '?' || c == '#'
  let a ← (t.takeWhile (!isEnd ·)).foldlM Authority.step {}
  if a.opened != a.closed || 1 < a.colons || a.user || a.percent then none
  else some (t.takeWhile (!isEnd ·), t.dropWhile (!isEnd ·))

/-- What follows the scheme, if the text opens with one. -/
def afterScheme (t : Text) : Option Text :=
  match t.dropWhile isSchemeChar with
  | ':' :: '/' :: '/' :: rest => some rest
  | _ => none

/-- The longest scheme there may be. -/
def schemeLimit : Nat := 64

/-- The longest target there may be, in bytes. -/
def sizeLimit : Nat := 65534

def ofText? (t : Text) : Option Uri :=
  if sizeLimit < Text.size t then none
  else
    match t with
    | [] => none
    | ['*'] => some ⟨t, t⟩
    | '/' :: _ => (pathOf? t).map (⟨t, ·⟩)
    | _ =>
      match afterScheme t with
      | none => do
        let (_, rest) ← authority? t
        if rest = [] then some ⟨t, []⟩ else none
      | some rest => do
        if schemeLimit < (t.takeWhile isSchemeChar).length then none
        else
          let (host, target) ← authority? rest
          if host = [] then none
          else
            let path ← pathOf? target
            some ⟨t, if path = [] then ['/'] else path⟩

end Uri

end Routing
