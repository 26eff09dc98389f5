import Routing.Text.Percent

/-!
# Well-formed bytes

Bytes are read without a gap just when they are the encoding of some text: a character is read from
no other bytes than its own, so neither a longer form of one nor a surrogate is read.

* `Utf8.exists_char_of_decodeFrom` — where there is no gap, the first bytes are those of a
  character.
* `Utf8.strict?_eq_some_iff` — the bytes that read as a text are its encoding.
* `Percent.text?_eq_some_iff` — the text that a path stands for.
-/

namespace Routing.Text

namespace Utf8

/-! ## Characters by their bytes -/

theorem toNat_ofNat_char {n : Nat} (h : n.isValidChar) : (Char.ofNat n).toNat = n := by
  rw [Char.ofNat, dif_pos h]
  rfl

theorem encodeChar_two {k i : Nat} (hk : 2 ≤ k ∧ k < 0x20) (hi : i < 0x40) :
    ∃ c, encodeChar c = [UInt8.ofNat (0xC0 + k), UInt8.ofNat (0x80 + i)] := by
  refine ⟨Char.ofNat (0x40 * k + i), ?_⟩
  have hvalid : (0x40 * k + i).isValidChar := Or.inl (by omega)
  simp only [encodeChar, toNat_ofNat_char hvalid]
  rw [if_neg (by omega), if_pos (by omega)]
  congr <;> omega

/-- Neither a form that is too long nor a surrogate. -/
theorem encodeChar_three {k j i : Nat} (hk : k < 0x10) (hj : j < 0x40) (hi : i < 0x40)
    (hlow : k = 0 → 0x20 ≤ j) (hhigh : k = 0xD → j < 0x20) :
    ∃ c, encodeChar c =
      [UInt8.ofNat (0xE0 + k), UInt8.ofNat (0x80 + j), UInt8.ofNat (0x80 + i)] := by
  refine ⟨Char.ofNat (0x1000 * k + 0x40 * j + i), ?_⟩
  have hvalid : (0x1000 * k + 0x40 * j + i).isValidChar := by
    by_cases h : 0x1000 * k + 0x40 * j + i < 0xD800
    · exact Or.inl h
    · exact Or.inr (by omega)
  simp only [encodeChar, toNat_ofNat_char hvalid]
  rw [if_neg (by omega), if_neg (by omega), if_pos (by omega)]
  congr <;> omega

/-- Neither a form that is too long nor a number beyond the last character. -/
theorem encodeChar_four {k l j i : Nat} (hk : k < 5) (hl : l < 0x40) (hj : j < 0x40)
    (hi : i < 0x40) (hlow : k = 0 → 0x10 ≤ l) (hhigh : k = 4 → l < 0x10) :
    ∃ c, encodeChar c = [UInt8.ofNat (0xF0 + k), UInt8.ofNat (0x80 + l),
      UInt8.ofNat (0x80 + j), UInt8.ofNat (0x80 + i)] := by
  refine ⟨Char.ofNat (0x40000 * k + 0x1000 * l + 0x40 * j + i), ?_⟩
  have hvalid : (0x40000 * k + 0x1000 * l + 0x40 * j + i).isValidChar := Or.inr (by omega)
  simp only [encodeChar, toNat_ofNat_char hvalid]
  rw [if_neg (by omega), if_neg (by omega), if_neg (by omega)]
  congr <;> omega

/-! ## Reading without a gap -/

/-- Behind an incomplete character comes a byte between its bounds, or there is a gap. -/
theorem exists_of_pending {p : Partial} {bytes : Bytes} (hp : 0x80 ≤ p.lo ∧ p.hi ≤ 0xBF)
    (h : none ∉ decodeFrom (some p) bytes) :
    ∃ i rest, bytes = UInt8.ofNat (0x80 + i) :: rest ∧ i < 0x40 ∧
      p.lo ≤ 0x80 + i ∧ 0x80 + i ≤ p.hi := by
  cases bytes with
  | nil => simp [decodeFrom] at h
  | cons b rest =>
    by_cases hb : p.lo ≤ b.toNat ∧ b.toNat ≤ p.hi
    · have hi : 0x80 + (b.toNat - 0x80) = b.toNat := by omega
      refine ⟨b.toNat - 0x80, rest, ?_, by omega, by omega, by omega⟩
      rw [hi, UInt8.ofNat_toNat]
    · refine absurd ?_ h
      rw [decodeFrom]
      simp only [hb, ↓reduceIte]
      split <;> simp

/-- What an opening byte begins, by its bounds. -/
theorem opening_cases (b : UInt8) :
    b.toNat < 0x80 ∨ opening b.toNat = none ∨
      (∃ k, b = UInt8.ofNat (0xC0 + k) ∧ 2 ≤ k ∧ k < 0x20) ∨
      (∃ k, b = UInt8.ofNat (0xE0 + k) ∧ k < 0x10) ∨ ∃ k, b = UInt8.ofNat (0xF0 + k) ∧ k < 5 := by
  have hbyte {n : Nat} (h : n ≤ b.toNat) : b = UInt8.ofNat (n + (b.toNat - n)) := by
    rw [Nat.add_sub_cancel' h, UInt8.ofNat_toNat]
  unfold opening
  split
  · exact Or.inl ‹_›
  split
  · exact Or.inr (Or.inl rfl)
  split
  · exact Or.inr (Or.inr (Or.inl ⟨b.toNat - 0xC0, hbyte (by omega), by omega, by omega⟩))
  split
  · exact Or.inr (Or.inr (Or.inr (Or.inl ⟨b.toNat - 0xE0, hbyte (by omega), by omega⟩)))
  split
  · exact Or.inr (Or.inr (Or.inr (Or.inr ⟨b.toNat - 0xF0, hbyte (by omega), by omega⟩)))
  · exact Or.inr (Or.inl rfl)

/-- **Where there is no gap, the first bytes are those of a character.** -/
theorem exists_char_of_decodeFrom {b : UInt8} {rest : Bytes}
    (h : none ∉ decodeFrom none (b :: rest)) :
    ∃ c rest', b :: rest = encodeChar c ++ rest' := by
  rcases opening_cases b with hb | hb | ⟨k, rfl, hk⟩ | ⟨k, rfl, hk⟩ | ⟨k, rfl, hk⟩
  · refine ⟨Char.ofNat b.toNat, rest, ?_⟩
    have hvalid : b.toNat.isValidChar := Or.inl (by omega)
    simp only [encodeChar, toNat_ofNat_char hvalid, if_pos hb, UInt8.ofNat_toNat]
    rfl
  · rw [decodeFrom_none_cons, hb] at h
    exact absurd List.mem_cons_self h
  · rw [decodeFrom_none_cons, toNat_ofNat (by omega), opening_two hk.1 hk.2] at h
    obtain ⟨i, rest', rfl, hi, -⟩ := exists_of_pending ⟨Nat.le_refl _, Nat.le_refl _⟩ h
    obtain ⟨c, hc⟩ := encodeChar_two hk hi
    exact ⟨c, rest', by rw [hc]; rfl⟩
  · rw [decodeFrom_none_cons, toNat_ofNat (by omega), opening_three hk] at h
    dsimp only at h
    obtain ⟨j, rest', rfl, hj, hlo, hhi⟩ :=
      exists_of_pending ⟨by dsimp only; split <;> omega, by dsimp only; split <;> omega⟩ h
    dsimp only at hlo hhi
    rw [decodeFrom_some_tail hj ⟨hlo, hhi⟩, if_neg (by dsimp only; omega)] at h
    obtain ⟨i, rest', rfl, hi, -⟩ := exists_of_pending ⟨Nat.le_refl _, Nat.le_refl _⟩ h
    obtain ⟨c, hc⟩ := encodeChar_three hk hj hi
      (fun hk => by rw [if_pos hk] at hlo; omega) (fun hk => by rw [if_pos hk] at hhi; omega)
    exact ⟨c, rest', by rw [hc]; rfl⟩
  · rw [decodeFrom_none_cons, toNat_ofNat (by omega), opening_four hk] at h
    dsimp only at h
    obtain ⟨l, rest', rfl, hl, hlo, hhi⟩ :=
      exists_of_pending ⟨by dsimp only; split <;> omega, by dsimp only; split <;> omega⟩ h
    dsimp only at hlo hhi
    rw [decodeFrom_some_tail hl ⟨hlo, hhi⟩, if_neg (by dsimp only; omega)] at h
    obtain ⟨j, rest', rfl, hj, -⟩ := exists_of_pending ⟨Nat.le_refl _, Nat.le_refl _⟩ h
    rw [decodeFrom_some_tail hj ⟨by dsimp only; omega, by dsimp only; omega⟩,
      if_neg (by dsimp only; omega)] at h
    obtain ⟨i, rest', rfl, hi, -⟩ := exists_of_pending ⟨Nat.le_refl _, Nat.le_refl _⟩ h
    obtain ⟨c, hc⟩ := encodeChar_four hk hl hj hi
      (fun hk => by rw [if_pos hk] at hlo; omega) (fun hk => by rw [if_pos hk] at hhi; omega)
    exact ⟨c, rest', by rw [hc]; rfl⟩

theorem eq_encode_of_decode {bytes : Bytes} {t : Text} (h : decode bytes = t.map some) :
    bytes = encode t := by
  induction t generalizing bytes with
  | nil =>
    cases bytes with
    | nil => rfl
    | cons b rest =>
      obtain ⟨c, rest', hsplit⟩ := exists_char_of_decodeFrom (b := b) (by
        rw [decode, List.map_nil] at h
        rw [h]
        exact List.not_mem_nil)
      rw [decode, hsplit, decodeFrom_encodeChar] at h
      cases h
  | cons c t ih =>
    cases bytes with
    | nil => cases h
    | cons b rest =>
      obtain ⟨c', rest', hsplit⟩ := exists_char_of_decodeFrom (b := b) (by
        rw [decode] at h
        rw [h]
        simp)
      rw [decode, hsplit, decodeFrom_encodeChar, List.map_cons, List.cons.injEq] at h
      obtain ⟨hc, hrest⟩ := h
      rw [hsplit, ih hrest, Option.some.inj hc]
      rfl

theorem mapM_id_eq_some_iff {chars : List (Option Char)} {t : Text} :
    chars.mapM id = some t ↔ chars = t.map some := by
  induction chars generalizing t with
  | nil => cases t <;> simp
  | cons c chars ih =>
    cases c with
    | none => cases t <;> simp
    | some c =>
      have hcons : (some c :: chars).mapM id = (chars.mapM id).map (c :: ·) := by
        cases h : chars.mapM id <;> simp [h]
      rw [hcons]
      cases t with
      | nil => simp
      | cons d t =>
        rw [Option.map_eq_some_iff, List.map_cons, List.cons.injEq, Option.some.injEq]
        constructor
        · rintro ⟨t', ht', h⟩
          obtain ⟨rfl, rfl⟩ := List.cons.inj h
          exact ⟨rfl, ih.1 ht'⟩
        · rintro ⟨rfl, h⟩
          exact ⟨t, ih.2 h, rfl⟩

/-- **The bytes that read as a text are its encoding.** -/
theorem strict?_eq_some_iff {bytes : Bytes} {t : Text} :
    strict? bytes = some t ↔ bytes = encode t := by
  constructor
  · intro h
    exact eq_encode_of_decode (mapM_id_eq_some_iff.1 h)
  · rintro rfl
    exact strict?_encode t

theorem encode_injective {s t : Text} (h : encode s = encode t) : s = t := by
  have hs := strict?_eq_some_iff.2 h
  rw [strict?_encode] at hs
  exact Option.some.inj hs

end Utf8

namespace Percent

/-- The text that a path stands for is the one whose encoding its bytes are. -/
theorem text?_eq_some_iff {path t : Text} : text? path = some t ↔ decode path = Utf8.encode t :=
  Utf8.strict?_eq_some_iff

end Percent

end Routing.Text
