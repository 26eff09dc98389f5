import Routing.Text.Utf8
import Routing.Text.Hex

/-!
# Percent encoding

In a path a percent sign and two hexadecimal digits stand for a byte. Decoding is done once, and a
percent sign without two digits behind it stands for itself.

* `decode` — the bytes a path stands for.
* `text` — the same as text, ill-formed parts replaced.
* `text?` — the same as text, if it is well formed.
* `decodeBytes_of_not_mem`, `text_of_not_mem` — without a percent sign nothing changes.
-/

namespace Routing.Text.Percent

/-- The value of a byte that is a hexadecimal digit. -/
def digit? (b : UInt8) : Option Nat := hexDigit? (Char.ofNat b.toNat)

def decodeBytes : Bytes → Bytes
  | [] => []
  | b :: rest =>
    if b = 0x25 then
      match rest with
      | h :: l :: rest' =>
        match digit? h, digit? l with
        | some h', some l' => UInt8.ofNat (16 * h' + l') :: decodeBytes rest'
        | _, _ => b :: decodeBytes (h :: l :: rest')
      | rest' => b :: decodeBytes rest'
    else b :: decodeBytes rest

theorem decodeBytes_plain {b : UInt8} (h : b ≠ 0x25) (rest : Bytes) :
    decodeBytes (b :: rest) = b :: decodeBytes rest := by
  match rest with
  | [] | [_] | _ :: _ :: _ => simp [decodeBytes, h]

/-- A percent sign and two digits stand for one byte. -/
theorem decodeBytes_escape {h l : UInt8} {h' l' : Nat} (hh : digit? h = some h')
    (hl : digit? l = some l') (rest : Bytes) :
    decodeBytes (0x25 :: h :: l :: rest) = UInt8.ofNat (16 * h' + l') :: decodeBytes rest := by
  rw [decodeBytes, if_pos rfl]
  simp only [hh, hl]

/-- A percent sign without two digits behind it stands for itself. -/
theorem decodeBytes_percent {rest : Bytes}
    (h : ∀ a b rest' m n, rest = a :: b :: rest' → digit? a = some m → digit? b ≠ some n) :
    decodeBytes (0x25 :: rest) = 0x25 :: decodeBytes rest := by
  match rest with
  | [] | [_] => rfl
  | a :: b :: rest' =>
    rw [decodeBytes, if_pos rfl]
    split
    · rename_i ha hb
      exact absurd hb (h a b rest' _ _ rfl ha)
    · rfl

/-- Bytes without a percent sign stand for themselves. -/
theorem decodeBytes_of_not_mem {bytes : Bytes} (h : 0x25 ∉ bytes) : decodeBytes bytes = bytes := by
  induction bytes with
  | nil => rfl
  | cons b rest ih =>
    simp only [List.mem_cons, not_or] at h
    rw [decodeBytes_plain (Ne.symm h.1), ih h.2]

def decode (path : Text) : Bytes := decodeBytes (Utf8.encode path)

def text (path : Text) : Text := Utf8.lenient (decode path)

def text? (path : Text) : Option Text := Utf8.strict? (decode path)

theorem not_mem_encode {path : Text} (h : '%' ∉ path) : 0x25 ∉ Utf8.encode path :=
  mt (Utf8.mem_encode_iff (d := '%') (by decide)).1 h

theorem decode_of_not_mem {path : Text} (h : '%' ∉ path) : decode path = Utf8.encode path :=
  decodeBytes_of_not_mem (not_mem_encode h)

/-- A path without a percent sign stands for itself. -/
theorem text_of_not_mem {path : Text} (h : '%' ∉ path) : text path = path := by
  rw [text, decode_of_not_mem h, Utf8.lenient_encode]

end Routing.Text.Percent
