import Mathlib.Data.List.Basic
import Routing.Text.Utf8

/-!
# Text in byte order

* `Text.Utf8.encode_lt_encode` — texts are ordered as their bytes are.
-/

namespace Routing.Text.Utf8

theorem encodeChar_ne_nil (c : Char) : encodeChar c ≠ [] := by
  simp only [encodeChar]
  split_ifs <;> simp

theorem ofNat_cons_lt {a b : Nat} {x y : Bytes} (ha : a < 256) (hb : b < 256) (hle : a ≤ b)
    (h : a = b → x < y) : UInt8.ofNat a :: x < UInt8.ofNat b :: y := by
  rw [List.cons_lt_cons_iff, UInt8.lt_iff_toNat_lt, ← UInt8.toNat_inj, toNat_ofNat ha,
    toNat_ofNat hb]
  rcases Nat.lt_or_eq_of_le hle with hlt | heq
  · exact Or.inl hlt
  · exact Or.inr ⟨heq, h heq⟩

/-- Of two characters the smaller one has the smaller bytes, whatever comes behind them. -/
theorem encodeChar_append_lt {c d : Char} (h : c < d) (s t : Bytes) :
    encodeChar c ++ s < encodeChar d ++ t := by
  have hlt : c.toNat < d.toNat := h
  have hc := toNat_bounds c
  have hd := toNat_bounds d
  simp only [encodeChar]
  generalize c.toNat = m at hlt hc
  generalize d.toNat = n at hlt hd
  -- The first byte tells how many there are, so only equally many are left to compare.
  split_ifs <;> simp only [List.cons_append, List.nil_append] <;>
    first
    | omega
    | exact ofNat_cons_lt (by omega) (by omega) (by omega) fun h0 => absurd h0 (by omega)
    | refine ofNat_cons_lt (by omega) (by omega) (by omega) fun h0 => ?_
  · exact ofNat_cons_lt (by omega) (by omega) (by omega) fun h1 => absurd h1 (by omega)
  · refine ofNat_cons_lt (by omega) (by omega) (by omega) fun h1 => ?_
    exact ofNat_cons_lt (by omega) (by omega) (by omega) fun h2 => absurd h2 (by omega)
  · refine ofNat_cons_lt (by omega) (by omega) (by omega) fun h1 => ?_
    refine ofNat_cons_lt (by omega) (by omega) (by omega) fun h2 => ?_
    exact ofNat_cons_lt (by omega) (by omega) (by omega) fun h3 => absurd h3 (by omega)

theorem encode_lt_encode {s t : Text} (h : s < t) : encode s < encode t := by
  induction s generalizing t with
  | nil =>
    cases t with
    | nil => exact absurd h (List.lt_irrefl [])
    | cons d t =>
      obtain ⟨b, bytes, hb⟩ := List.exists_cons_of_ne_nil (encodeChar_ne_nil d)
      simp [encode, hb]
  | cons c s ih =>
    cases t with
    | nil => exact absurd h (List.not_lt_nil _)
    | cons d t =>
      rcases List.cons_lt_cons_iff.1 h with hcd | ⟨rfl, hst⟩
      · exact encodeChar_append_lt hcd _ _
      · exact List.append_left_lt (ih hst)

end Routing.Text.Utf8
