import Routing.Text

/-!
# Methods

A method is a token: a name of at least one character, each a letter, a digit or one of a few
marks. Upper and lower case differ.

* `Method.ofText?` — the method with this name.
-/

namespace Routing

/-- A character of a token. -/
def isTokenChar (c : Char) : Bool :=
  c.isAlphanum ||
    ['!', '#', '$', '%', '&', '\'', '*', '+', '-', '.', '^', '_', '\x60', '|', '~'].contains c

def isToken (t : Text) : Bool := !t.isEmpty && t.all isTokenChar

structure Method where
  name : Text
  token : isToken name = true
  deriving DecidableEq

namespace Method

def ofText? (name : Text) : Option Method :=
  if h : isToken name = true then some ⟨name, h⟩ else none

def get : Method := ⟨['G', 'E', 'T'], by decide⟩
def post : Method := ⟨['P', 'O', 'S', 'T'], by decide⟩
def put : Method := ⟨['P', 'U', 'T'], by decide⟩
def delete : Method := ⟨['D', 'E', 'L', 'E', 'T', 'E'], by decide⟩
def patch : Method := ⟨['P', 'A', 'T', 'C', 'H'], by decide⟩
def options : Method := ⟨['O', 'P', 'T', 'I', 'O', 'N', 'S'], by decide⟩
def head : Method := ⟨['H', 'E', 'A', 'D'], by decide⟩
def connect : Method := ⟨['C', 'O', 'N', 'N', 'E', 'C', 'T'], by decide⟩
def trace : Method := ⟨['T', 'R', 'A', 'C', 'E'], by decide⟩

end Method

end Routing
