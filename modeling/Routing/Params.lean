import Routing.Text

/-!
# Parameters

The wildcards of a matched route and the texts they took. There is a slot for every wildcard on
the way to the route, in the order of the path; a slot is filled by its position.

* `Params.fill` — the slots of a route with what was captured on the way to it.
* `Params.get?` — the text of the first slot with a name.
* `Params.fill_eq` — captures for one slot after the other are the parameters as they come.
-/

namespace Routing

structure Param where
  key : Text
  value : Text
  deriving DecidableEq, Repr

/-- A slot together with what goes into it. -/
structure Capture where
  slot : Nat
  param : Param
  deriving DecidableEq, Repr

structure Params where
  slots : List Param
  deriving DecidableEq, Repr

namespace Params

/-- Slots that nothing was put into have an empty key and an empty text. -/
def blank (count : Nat) : Params := ⟨List.replicate count ⟨[], []⟩⟩

/-- Fills one slot; a slot that does not exist takes nothing. -/
def set (p : Params) (c : Capture) : Params := ⟨p.slots.set c.slot c.param⟩

def fill (count : Nat) (captures : List Capture) : Params :=
  captures.foldr (fun c p => p.set c) (blank count)

def get? (p : Params) (key : Text) : Option Text :=
  (p.slots.find? fun param => param.key = key).map Param.value

/-- The text of a name, empty if no slot has it. -/
def value (p : Params) (key : Text) : Text := (p.get? key).getD []

def at? (p : Params) (index : Nat) : Option Param := p.slots[index]?

def length (p : Params) : Nat := p.slots.length

@[simp] theorem length_set (p : Params) (c : Capture) : (p.set c).length = p.length := by
  simp [set, length]

@[simp] theorem length_blank (count : Nat) : (blank count).length = count := by
  simp [blank, length]

@[simp] theorem length_fill (count : Nat) (captures : List Capture) :
    (fill count captures).length = count := by
  induction captures with
  | nil => simp [fill]
  | cons c captures ih => simpa [fill] using ih

/-- Behind slots that are filled already. -/
theorem foldr_set {filled : List Param} {captures : List Capture}
    (h : captures.map Capture.slot = List.range' filled.length captures.length) :
    captures.foldr (fun c (p : Params) => p.set c) ⟨filled ++ (blank captures.length).slots⟩ =
      ⟨filled ++ captures.map Capture.param⟩ := by
  induction captures generalizing filled with
  | nil => rfl
  | cons c captures ih =>
    simp only [List.map_cons, List.length_cons, List.range'_succ, List.cons.injEq] at h
    obtain ⟨hslot, hrest⟩ := h
    have hblank : filled ++ (blank (captures.length + 1)).slots =
        (filled ++ [⟨[], []⟩]) ++ (blank captures.length).slots := by
      simp [blank, List.replicate_succ]
    have hfilled := @ih (filled ++ [⟨[], []⟩]) (by simpa using hrest)
    rw [List.length_cons, hblank, List.foldr_cons, hfilled]
    simp [set, hslot]

/-- Where every slot has its capture, nothing stays blank. -/
theorem fill_eq {captures : List Capture}
    (h : captures.map Capture.slot = List.range' 0 captures.length) :
    fill captures.length captures = ⟨captures.map Capture.param⟩ :=
  @foldr_set [] captures h

end Params

end Routing
