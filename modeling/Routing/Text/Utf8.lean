import Routing.Text

/-!
# UTF-8

Text as bytes and back. One decoder reads the bytes from left to right and gives the characters
with a gap for every ill-formed part; a part is as long as a character could still have come of
it. Text is then read leniently, each gap filled with the replacement character, or strictly.

* `encode` — the bytes of a text.
* `decode` — characters and gaps.
* `lenient`, `strict?` — the two ways to read.
* `decode_encode` — what was encoded is read back, without gaps.
* `eq_of_mem_encodeChar` — a character of one byte is the only one with its byte.
-/

namespace Routing

abbrev Bytes := List UInt8

namespace Text.Utf8

def encodeChar (c : Char) : Bytes :=
  let n := c.toNat
  if n < 0x80 then [UInt8.ofNat n]
  else if n < 0x800 then [UInt8.ofNat (0xC0 + n / 0x40), UInt8.ofNat (0x80 + n % 0x40)]
  else if n < 0x10000 then
    [UInt8.ofNat (0xE0 + n / 0x1000), UInt8.ofNat (0x80 + n / 0x40 % 0x40),
     UInt8.ofNat (0x80 + n % 0x40)]
  else
    [UInt8.ofNat (0xF0 + n / 0x40000), UInt8.ofNat (0x80 + n / 0x1000 % 0x40),
     UInt8.ofNat (0x80 + n / 0x40 % 0x40), UInt8.ofNat (0x80 + n % 0x40)]

def encode (t : Text) : Bytes := t.flatMap encodeChar

/-- A character that is not complete: its bits so far, how many bytes are to come, and between
which bounds the next one has to lie. -/
structure Partial where
  value : Nat
  left : Nat
  lo : Nat
  hi : Nat
  deriving DecidableEq, Repr

/-- What a byte begins: a character, a partial one, or nothing. -/
def opening (b : Nat) : Option (Char ⊕ Partial) :=
  if b < 0x80 then some (.inl (Char.ofNat b))
  else if b < 0xC2 then none
  else if b < 0xE0 then some (.inr ⟨b - 0xC0, 1, 0x80, 0xBF⟩)
  else if b < 0xF0 then
    some (.inr ⟨b - 0xE0, 2, if b = 0xE0 then 0xA0 else 0x80, if b = 0xED then 0x9F else 0xBF⟩)
  else if b < 0xF5 then
    some (.inr ⟨b - 0xF0, 3, if b = 0xF0 then 0x90 else 0x80, if b = 0xF4 then 0x8F else 0xBF⟩)
  else none

/-- Reads on behind what is pending; `none` in the result is an ill-formed part. -/
def decodeFrom : Option Partial → Bytes → List (Option Char)
  | none, [] => []
  | some _, [] => [none]
  | pending, b :: rest =>
    let n := b.toNat
    let fresh (gap : List (Option Char)) : List (Option Char) :=
      match opening n with
      | none => gap ++ none :: decodeFrom none rest
      | some (.inl c) => gap ++ some c :: decodeFrom none rest
      | some (.inr p) => gap ++ decodeFrom (some p) rest
    match pending with
    | none => fresh []
    | some p =>
      if p.lo ≤ n ∧ n ≤ p.hi then
        let value := 0x40 * p.value + (n - 0x80)
        if p.left ≤ 1 then some (Char.ofNat value) :: decodeFrom none rest
        else decodeFrom (some ⟨value, p.left - 1, 0x80, 0xBF⟩) rest
      else fresh [none]

def decode (bytes : Bytes) : List (Option Char) := decodeFrom none bytes

def replacement : Char := '\uFFFD'

/-- The text with a replacement character for every ill-formed part. -/
def lenient (bytes : Bytes) : Text := (decode bytes).map (·.getD replacement)

/-- The text, if all of it is well formed. -/
def strict? (bytes : Bytes) : Option Text := (decode bytes).mapM id

theorem decodeFrom_none_cons (b : UInt8) (rest : Bytes) :
    decodeFrom none (b :: rest) =
      match opening b.toNat with
      | none => none :: decodeFrom none rest
      | some (.inl c) => some c :: decodeFrom none rest
      | some (.inr p) => decodeFrom (some p) rest := by
  rw [decodeFrom]
  rfl

theorem decodeFrom_some_cons {p : Partial} {b : UInt8} (h : p.lo ≤ b.toNat ∧ b.toNat ≤ p.hi)
    (rest : Bytes) :
    decodeFrom (some p) (b :: rest) =
      if p.left ≤ 1 then
        some (Char.ofNat (0x40 * p.value + (b.toNat - 0x80))) :: decodeFrom none rest
      else decodeFrom (some ⟨0x40 * p.value + (b.toNat - 0x80), p.left - 1, 0x80, 0xBF⟩) rest := by
  rw [decodeFrom]
  simp only [h, and_self, ↓reduceIte]

theorem toNat_ofNat {n : Nat} (h : n < 256) : (UInt8.ofNat n).toNat = n := by
  simp [Nat.mod_eq_of_lt h]

/-- Code points of characters: below the surrogates or above them. -/
theorem toNat_bounds (c : Char) :
    c.toNat < 0xD800 ∨ (0xDFFF < c.toNat ∧ c.toNat < 0x110000) := c.valid

theorem opening_one {n : Nat} (h : n < 0x80) : opening n = some (.inl (Char.ofNat n)) := by
  simp [opening, h]

theorem opening_two {n : Nat} (h : 2 ≤ n) (h' : n < 0x20) :
    opening (0xC0 + n) = some (.inr ⟨n, 1, 0x80, 0xBF⟩) := by
  simp only [opening, show ¬ 0xC0 + n < 0x80 by omega, show ¬ 0xC0 + n < 0xC2 by omega,
    show 0xC0 + n < 0xE0 by omega, ↓reduceIte, show 0xC0 + n - 0xC0 = n by omega]

theorem opening_three {n : Nat} (h : n < 0x10) :
    opening (0xE0 + n) =
      some (.inr ⟨n, 2, if n = 0 then 0xA0 else 0x80, if n = 0xD then 0x9F else 0xBF⟩) := by
  simp only [opening, show ¬ 0xE0 + n < 0x80 by omega, show ¬ 0xE0 + n < 0xC2 by omega,
    show ¬ 0xE0 + n < 0xE0 by omega, show 0xE0 + n < 0xF0 by omega, ↓reduceIte,
    show 0xE0 + n - 0xE0 = n by omega, show 0xE0 + n = 0xE0 ↔ n = 0 by omega,
    show 0xE0 + n = 0xED ↔ n = 0xD by omega]

theorem opening_four {n : Nat} (h : n < 5) :
    opening (0xF0 + n) =
      some (.inr ⟨n, 3, if n = 0 then 0x90 else 0x80, if n = 4 then 0x8F else 0xBF⟩) := by
  simp only [opening, show ¬ 0xF0 + n < 0x80 by omega, show ¬ 0xF0 + n < 0xC2 by omega,
    show ¬ 0xF0 + n < 0xE0 by omega, show ¬ 0xF0 + n < 0xF0 by omega,
    show 0xF0 + n < 0xF5 by omega, ↓reduceIte, show 0xF0 + n - 0xF0 = n by omega,
    show 0xF0 + n = 0xF0 ↔ n = 0 by omega, show 0xF0 + n = 0xF4 ↔ n = 4 by omega]

/-- Reads the next six bits of a partial character. -/
theorem decodeFrom_some_tail {p : Partial} {k : Nat} (hk : k < 0x40)
    (h : p.lo ≤ 0x80 + k ∧ 0x80 + k ≤ p.hi) (rest : Bytes) :
    decodeFrom (some p) (UInt8.ofNat (0x80 + k) :: rest) =
      if p.left ≤ 1 then some (Char.ofNat (0x40 * p.value + k)) :: decodeFrom none rest
      else decodeFrom (some ⟨0x40 * p.value + k, p.left - 1, 0x80, 0xBF⟩) rest := by
  have hb : (UInt8.ofNat (0x80 + k)).toNat = 0x80 + k := toNat_ofNat (by omega)
  rw [decodeFrom_some_cons (by rw [hb]; exact h), hb, Nat.add_sub_cancel_left]

/-- A character that was encoded is the first thing read. -/
theorem decodeFrom_encodeChar (c : Char) (rest : Bytes) :
    decodeFrom none (encodeChar c ++ rest) = some c :: decodeFrom none rest := by
  have hc := toNat_bounds c
  have hofNat := Char.ofNat_toNat c
  simp only [encodeChar]
  generalize c.toNat = n at hc hofNat
  subst hofNat
  split
  · rename_i h
    rw [List.cons_append, List.nil_append, decodeFrom_none_cons, toNat_ofNat (by omega),
      opening_one h]
  split
  · rename_i h1 h2
    rw [List.cons_append, decodeFrom_none_cons, toNat_ofNat (by omega),
      opening_two (by omega) (by omega)]
    simp only [List.cons_append, List.nil_append]
    rw [decodeFrom_some_tail (by omega) (by dsimp only; omega)]
    simp only [Nat.le_refl, ↓reduceIte, show 0x40 * (n / 0x40) + n % 0x40 = n by omega]
  split
  · rename_i h1 h2 h3
    rw [List.cons_append, decodeFrom_none_cons, toNat_ofNat (by omega), opening_three (by omega)]
    simp only [List.cons_append, List.nil_append]
    rw [decodeFrom_some_tail (by omega) (by dsimp only; split <;> split <;> omega)]
    simp only [show ¬ 2 ≤ 1 by omega, ↓reduceIte]
    rw [decodeFrom_some_tail (by omega) (by dsimp only; omega)]
    simp only [Nat.le_refl, ↓reduceIte, Nat.add_one_sub_one,
      show 0x40 * (0x40 * (n / 0x1000) + n / 0x40 % 0x40) + n % 0x40 = n by omega]
  · rename_i h1 h2 h3
    rw [List.cons_append, decodeFrom_none_cons, toNat_ofNat (by omega), opening_four (by omega)]
    simp only [List.cons_append, List.nil_append]
    rw [decodeFrom_some_tail (by omega) (by dsimp only; split <;> split <;> omega)]
    simp only [show ¬ 3 ≤ 1 by omega, ↓reduceIte]
    rw [decodeFrom_some_tail (by omega) (by dsimp only; omega)]
    simp only [show ¬ 3 - 1 ≤ 1 by omega, ↓reduceIte]
    rw [decodeFrom_some_tail (by omega) (by dsimp only; omega)]
    simp only [show 3 - 1 - 1 ≤ 1 by omega, ↓reduceIte,
      show 0x40 * (0x40 * (0x40 * (n / 0x40000) + n / 0x1000 % 0x40) + n / 0x40 % 0x40) +
        n % 0x40 = n by omega]

/-- Decoding gives back what was encoded, and nothing is ill-formed. -/
theorem decode_encode (t : Text) : decode (encode t) = t.map some := by
  induction t with
  | nil => rfl
  | cons c t ih =>
    simp only [decode, encode, List.flatMap_cons, decodeFrom_encodeChar, List.map_cons] at ih ⊢
    rw [ih]

@[simp] theorem lenient_encode (t : Text) : lenient (encode t) = t := by
  simp [lenient, decode_encode, Function.comp_def]

@[simp] theorem strict?_encode (t : Text) : strict? (encode t) = some t := by
  simp only [strict?, decode_encode]
  induction t with
  | nil => rfl
  | cons c t ih => simp [ih]

/-! ## Characters of one byte -/

theorem encodeChar_of_lt {c : Char} (h : c.toNat < 0x80) : encodeChar c = [UInt8.ofNat c.toNat] := by
  simp [encodeChar, h]

/-- All bytes of a longer character are at least `0x80`. -/
theorem le_of_mem_encodeChar {c : Char} {b : UInt8} (hc : 0x80 ≤ c.toNat) (h : b ∈ encodeChar c) :
    0x80 ≤ b.toNat := by
  have hbounds := toNat_bounds c
  simp only [encodeChar] at h
  rw [if_neg (by omega)] at h
  split at h
  · simp only [List.mem_cons, List.not_mem_nil, or_false] at h
    rcases h with rfl | rfl <;> rw [toNat_ofNat] <;> omega
  split at h
  · simp only [List.mem_cons, List.not_mem_nil, or_false] at h
    rcases h with rfl | rfl | rfl <;> rw [toNat_ofNat] <;> omega
  · simp only [List.mem_cons, List.not_mem_nil, or_false] at h
    rcases h with rfl | rfl | rfl | rfl <;> rw [toNat_ofNat] <;> omega

/-- A character of one byte is the only one with its byte. -/
theorem eq_of_mem_encodeChar {c d : Char} (hd : d.toNat < 0x80)
    (h : UInt8.ofNat d.toNat ∈ encodeChar c) : c = d := by
  have hbyte : (UInt8.ofNat d.toNat).toNat = d.toNat := toNat_ofNat (by omega)
  by_cases hc : c.toNat < 0x80
  · rw [encodeChar_of_lt hc, List.mem_singleton] at h
    have hnat := congrArg UInt8.toNat h
    rw [hbyte, toNat_ofNat (by omega)] at hnat
    exact Char.ext (UInt32.toNat_inj.1 hnat.symm)
  · have hle := le_of_mem_encodeChar (by omega) h
    omega

theorem mem_encode_iff {d : Char} (hd : d.toNat < 0x80) {t : Text} :
    UInt8.ofNat d.toNat ∈ encode t ↔ d ∈ t := by
  constructor
  · intro h
    obtain ⟨c, hc, hmem⟩ := List.mem_flatMap.1 h
    exact eq_of_mem_encodeChar hd hmem ▸ hc
  · intro h
    refine List.mem_flatMap.2 ⟨d, h, ?_⟩
    rw [encodeChar_of_lt hd]
    exact List.mem_singleton_self _

end Text.Utf8

end Routing
