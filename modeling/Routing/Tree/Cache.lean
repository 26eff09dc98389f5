import Routing.Tree.Growth

/-!
# Reading expressions once

Expressions that have been read may be kept, so that none of them is read twice. What has been read
so far makes no difference to what is answered, since a constraint carries the proof that it is what
its expression is read as; so a router keeps no cache from one registration to the next.

* `Cache.read` — a constraint, from the cache or read and kept there.
* `Node.growIn`, `Node.rehearseIn` — growing and rehearsing with a cache.
* `Reading.Answers` — what is answered whatever has been read.
* `Node.answers_growIn`, `Node.answers_rehearseIn` — the same as without a cache.
-/

namespace Routing

variable [Regex.Engine]

structure Cache where
  constraints : List Constraint := []

/-- What reads expressions, and goes on with what was read, until one is refused. -/
abbrev Reading (α : Type) : Type := ExceptT TreeError (StateM Cache) α

namespace Cache

def find? (cache : Cache) (raw : Text) : Option Constraint :=
  cache.constraints.find? (·.raw = raw)

/-- What the cache has for an expression is what it is read as. -/
theorem ofRaw?_of_find? {cache : Cache} {raw : Text} {c : Constraint}
    (h : cache.find? raw = some c) : Constraint.ofRaw? raw = some c := by
  have hraw : c.raw = raw := by simpa using List.find?_some h
  rw [← hraw, c.ofRaw?_raw]

/-- The constraint of a wildcard. It is kept once it has been read; an expression that cannot be
read leaves nothing. -/
def read (name raw : Text) : Reading Constraint := do
  let cache ← get
  match cache.find? raw with
  | some c => return c
  | none =>
    match Constraint.ofRaw? raw with
    | some c =>
      set (⟨c :: cache.constraints⟩ : Cache)
      return c
    | none => throw (.regexInvalid name raw)

end Cache

/-! ## Growing and rehearsing -/

def Edge.ofSegmentIn : Segment → Reading Edge
  | .literal text => return .literal text
  | .wildcard name => return .wildcard name
  | .regex name raw => return .regex name (← Cache.read name raw)

def readableIn : List Segment → Reading Unit
  | [] => return
  | s :: rest => do
    let _ ← Edge.ofSegmentIn s
    readableIn rest

def Branches.shootIn {ρ : Type} (slots : Nat) : List Segment → Reading (Branches ρ)
  | [] => return nil
  | s :: rest => do
    let edge ← Edge.ofSegmentIn s
    let below ← shootIn (slots + edge.width) rest
    return cons edge (slots + edge.width) none below nil

namespace Node

variable {ρ : Type}

def growIn : List Segment → Node ρ → Reading (Node ρ)
  | [], n => return n
  | s :: rest, n =>
    match n.below.find? (Edge.madeFrom s) with
    | some child => do
      let child ← growIn rest child
      return { n with below := n.below.modify (Edge.madeFrom s) fun _ => child }
    | none => do
      let edge ← Edge.ofSegmentIn s
      let slots := n.slots + edge.width
      let below ← Branches.shootIn slots rest
      MonadExcept.ofExcept (n.below.refuseConflict edge)
      return { n with below := n.below.insert edge ⟨slots, none, below⟩ }

def rehearseIn : List Segment → Node ρ → Reading (Option (Node ρ))
  | [], n => return some n
  | s :: rest, n =>
    match n.below.find? (Edge.madeFrom s) with
    | some child => rehearseIn rest child
    | none => do
      let edge ← Edge.ofSegmentIn s
      MonadExcept.ofExcept (n.below.refuseConflict edge)
      readableIn rest
      return none

end Node

/-! ## What is answered -/

namespace Reading

variable {α β : Type}

def answer (x : Reading α) (cache : Cache) : Except TreeError α := (x.run cache).1

/-- This is the answer whatever has been read. -/
def Answers (x : Reading α) (y : Except TreeError α) : Prop := ∀ cache, answer x cache = y

theorem answers_pure (a : α) : Answers (pure a) (.ok a) := fun _ => rfl

theorem answers_ofExcept (y : Except TreeError α) : Answers (MonadExcept.ofExcept y) y := by
  intro cache
  cases y <;> rfl

theorem answer_bind (x : Reading α) (f : α → Reading β) (cache : Cache) :
    answer (x >>= f) cache = match x.run cache with
      | (.ok a, cache') => answer (f a) cache'
      | (.error e, _) => .error e := by
  have hbind : (x >>= f).run = x.run >>= ExceptT.bindCont f := rfl
  rw [answer, hbind]
  change (let (a, cache') := x.run cache; ExceptT.bindCont f a cache').1 = _
  rcases x.run cache with ⟨_ | a, cache'⟩ <;> rfl

theorem Answers.bind {x : Reading α} {y : Except TreeError α} {f : α → Reading β}
    {g : α → Except TreeError β} (hx : Answers x y) (hf : ∀ a, Answers (f a) (g a)) :
    Answers (x >>= f) (y >>= g) := by
  intro cache
  rw [answer_bind, ← hx cache, answer]
  rcases x.run cache with ⟨e | a, cache'⟩
  · rfl
  · exact hf a cache'

end Reading

open Reading

theorem Cache.answers_read (name raw : Text) :
    Answers (Cache.read name raw)
      (match Constraint.ofRaw? raw with
      | some c => .ok c
      | none => .error (.regexInvalid name raw)) := by
  intro cache
  rw [Cache.read, answer_bind]
  change answer (match cache.find? raw with | some c => _ | none => _) cache = _
  cases hfind : cache.find? raw with
  | some c =>
    rw [Cache.ofRaw?_of_find? hfind]
    rfl
  | none => cases Constraint.ofRaw? raw <;> rfl

theorem Edge.answers_ofSegmentIn (s : Segment) :
    Answers (Edge.ofSegmentIn s) (Edge.ofSegment s) := by
  cases s with
  | literal text => exact answers_pure _
  | wildcard name => exact answers_pure _
  | regex name raw =>
    have hread := (Cache.answers_read name raw).bind fun c => answers_pure (Edge.regex name c)
    simp only [ofSegment]
    cases hraw : Constraint.ofRaw? raw <;> (rw [hraw] at hread; exact hread)

theorem answers_readableIn (segments : List Segment) :
    Answers (readableIn segments) (readable segments) := by
  induction segments with
  | nil => exact answers_pure ()
  | cons s rest ih => exact (Edge.answers_ofSegmentIn s).bind fun _ => ih

theorem Branches.answers_shootIn {ρ : Type} (slots : Nat) (segments : List Segment) :
    Answers (Branches.shootIn (ρ := ρ) slots segments) (Branches.shoot slots segments) := by
  induction segments generalizing slots with
  | nil => exact answers_pure _
  | cons s rest ih =>
    exact (Edge.answers_ofSegmentIn s).bind fun edge => (ih _).bind fun _ => answers_pure _

namespace Node

variable {ρ : Type}

/-- **Growing answers the same, whatever has been read.** -/
theorem answers_growIn (segments : List Segment) (n : Node ρ) :
    Answers (n.growIn segments) (n.grow segments) := by
  induction segments generalizing n with
  | nil => exact answers_pure n
  | cons s rest ih =>
    unfold growIn grow
    cases n.below.find? (Edge.madeFrom s) with
    | some child => exact (ih child).bind fun _ => answers_pure _
    | none =>
      exact (Edge.answers_ofSegmentIn s).bind fun edge =>
        (Branches.answers_shootIn _ rest).bind fun _ =>
          (answers_ofExcept _).bind fun _ => answers_pure _

/-- **Rehearsing answers the same, whatever has been read.** -/
theorem answers_rehearseIn (segments : List Segment) (n : Node ρ) :
    Answers (n.rehearseIn segments) (n.rehearse segments) := by
  induction segments generalizing n with
  | nil => exact answers_pure (some n)
  | cons s rest ih =>
    unfold rehearseIn rehearse
    cases n.below.find? (Edge.madeFrom s) with
    | some child => exact ih child
    | none =>
      exact (Edge.answers_ofSegmentIn s).bind fun edge =>
        (answers_ofExcept _).bind fun _ =>
          (answers_readableIn rest).bind fun _ => answers_pure none

end Node

end Routing
