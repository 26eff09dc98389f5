import Routing.Proofs.Decoding
import Routing.Proofs.Grammar

/-!
# Characters and bytes of a pattern

The characters that a pattern is read by have one byte each, which no other character has a byte
like. So a scan of its bytes meets them where a reader of its characters does, it cuts the pattern
in front of them and behind them, and what a backslash hides from it is no brace either way.

* `Scan.isBoundary_encode`, `Scan.cut_encode` — a text may be cut wherever a character begins.
* `Scan.closing_scans` — the braces that are counted.
* `Scan.split_encode` — the bytes of a pattern are scanned as its characters are read.
* `grammatical` — when a pattern splits, and into what.
-/

namespace Routing

namespace Text.Utf8

theorem utf8Size_eq (c : Char) :
    c.utf8Size =
      if c.toNat < 0x80 then 1
      else if c.toNat < 0x800 then 2
      else if c.toNat < 0x10000 then 3
      else 4 := by
  have hle {n : Nat} (h : n < UInt32.size) : c.val ≤ UInt32.ofNatLT n h ↔ c.toNat < n + 1 :=
    Nat.lt_succ_iff.symm
  simp only [Char.utf8Size, hle]

theorem length_encodeChar (c : Char) : (encodeChar c).length = c.utf8Size := by
  rw [utf8Size_eq]
  simp only [encodeChar]
  split
  · rfl
  split
  · rfl
  split <;> rfl

theorem encode_cons (c : Char) (t : Text) : encode (c :: t) = encodeChar c ++ encode t := rfl

theorem encode_append (s t : Text) : encode (s ++ t) = encode s ++ encode t := List.flatMap_append

theorem length_encode (t : Text) : (encode t).length = size t := by
  induction t with
  | nil => rfl
  | cons c t ih => rw [encode_cons, List.length_append, length_encodeChar, ih, size_cons]

/-- A character does not begin with a byte that goes on with one. -/
theorem encodeChar_head (c : Char) :
    ∃ b rest, encodeChar c = b :: rest ∧ (b.toNat < 0x80 ∨ 0xC0 ≤ b.toNat) := by
  have hc := toNat_bounds c
  simp only [encodeChar]
  split
  · exact ⟨_, _, rfl, Or.inl (by rw [toNat_ofNat] <;> omega)⟩
  split
  · exact ⟨_, _, rfl, Or.inr (by rw [toNat_ofNat] <;> omega)⟩
  split
  · exact ⟨_, _, rfl, Or.inr (by rw [toNat_ofNat] <;> omega)⟩
  · exact ⟨_, _, rfl, Or.inr (by rw [toNat_ofNat] <;> omega)⟩

end Text.Utf8

namespace Pattern.Scan

open Text (size)
open Text.Utf8

/-! ## Cuts -/

/-- A text may be cut wherever a character begins, and at its end. -/
theorem isBoundary_encode (s t : Text) : isBoundary (encode (s ++ t)) (size s) = true := by
  rw [encode_append, ← length_encode, isBoundary, List.getElem?_append_right (Nat.le_refl _),
    Nat.sub_self]
  cases t with
  | nil => simp [encode]
  | cons c t =>
    obtain ⟨b, rest, hbytes, hb⟩ := encodeChar_head c
    rw [encode_cons, hbytes, List.cons_append, List.getElem?_cons_zero]
    simp only [Bool.or_eq_true, decide_eq_true_eq, UInt8.lt_iff_toNat_lt, UInt8.le_iff_toNat_le]
    exact hb.elim (fun h => Or.inl (Or.inr h)) Or.inr

theorem cut_encode (s t u : Text) :
    cut (encode (s ++ (t ++ u))) (size s) (size s + size t) = .ok (encode t) := by
  have hfirst := isBoundary_encode s (t ++ u)
  have hlast := isBoundary_encode (s ++ t) u
  rw [List.append_assoc, Text.size_append] at hlast
  rw [cut, if_pos ⟨Nat.le_add_right _ _, hfirst, hlast⟩, encode_append, encode_append,
    ← length_encode s, ← length_encode t, ← List.append_assoc, ← List.length_append,
    List.take_left, List.drop_left]

theorem cut_encode_front (t u : Text) : cut (encode (t ++ u)) 0 (size t) = .ok (encode t) := by
  have hcut := cut_encode [] t u
  rwa [Text.size_nil, Nat.zero_add] at hcut

theorem cut_encode_behind (s t : Text) :
    cut (encode (s ++ t)) (size s) (encode (s ++ t)).length = .ok (encode t) := by
  have hcut := cut_encode s t []
  rwa [List.append_nil, ← Text.size_append, ← length_encode (s ++ t)] at hcut

theorem drop_encode (s t : Text) : (encode (s ++ t)).drop (size s) = encode t := by
  rw [encode_append, ← length_encode, List.drop_left]

theorem read_encode (t : Text) : read (encode t) = .ok t := by
  rw [read, strict?_encode]

/-! ## Braces -/

theorem encode_open (t : Text) : encode ('{' :: t) = openingBrace :: encode t := rfl

theorem encode_close (t : Text) : encode ('}' :: t) = closingBrace :: encode t := rfl

theorem encode_backslash (t : Text) : encode ('\\' :: t) = backslash :: encode t := rfl

theorem findIdx?_encode_of_not_mem {d : Char} (hd : d.toNat < 0x80) {t : Text} (h : d ∉ t) :
    (encode t).findIdx? (· == UInt8.ofNat d.toNat) = none := by
  rw [List.findIdx?_eq_none_iff]
  intro b hb
  simp only [beq_eq_false_iff_ne]
  rintro rfl
  exact h ((mem_encode_iff hd).1 hb)

theorem findIdx?_encode {d : Char} (hd : d.toNat < 0x80) {s : Text} (h : d ∉ s) (t : Text) :
    (encode (s ++ d :: t)).findIdx? (· == UInt8.ofNat d.toNat) = some (size s) := by
  rw [encode_append, encode_cons, encodeChar_of_lt hd, List.findIdx?_append,
    findIdx?_encode_of_not_mem hd h, length_encode]
  simp [List.findIdx?_cons]

theorem literalsAt_encode {t : Text} (h : '}' ∉ t) (offset : Nat) :
    literalsAt offset (encode t) = .ok (literals t) := by
  have hnone : (encode t).findIdx? (· == closingBrace) = none :=
    findIdx?_encode_of_not_mem (d := '}') (by decide) h
  rw [literalsAt, hnone, read_encode]
  rfl

theorem literalsAt_close {s : Text} (h : '}' ∉ s) (t : Text) (offset : Nat) :
    literalsAt offset (encode (s ++ '}' :: t)) =
      .error (.fault (.unexpectedClose (offset + size s))) := by
  have hsome : (encode (s ++ '}' :: t)).findIdx? (· == closingBrace) = some (size s) :=
    findIdx?_encode (d := '}') (by decide) h t
  rw [literalsAt, hsome]

/-- Bytes of longer characters are passed over. -/
theorem closing_large {bytes : Bytes} (h : ∀ b ∈ bytes, 0x80 ≤ b.toNat) (rest : Bytes)
    (depth i : Nat) :
    closing depth i (bytes ++ rest) = closing depth (i + bytes.length) rest := by
  induction bytes generalizing i with
  | nil => rfl
  | cons b bytes ih =>
    obtain ⟨hb, hbytes⟩ := List.forall_mem_cons.1 h
    have hne {c : UInt8} (hc : c.toNat < 0x80) : b ≠ c := by
      rintro rfl
      omega
    rw [List.cons_append, closing.eq_def]
    simp only [if_neg (hne (c := backslash) (by decide)),
      if_neg (hne (c := openingBrace) (by decide)), if_neg (hne (c := closingBrace) (by decide))]
    rw [ih hbytes, List.length_cons]
    congr 1
    omega

theorem closing_cons_plain {b : UInt8} (hbackslash : b ≠ backslash) (hopen : b ≠ openingBrace)
    (hclose : b ≠ closingBrace) (rest : Bytes) (depth i : Nat) :
    closing depth i (b :: rest) = closing depth (i + 1) rest := by
  rw [closing.eq_def]
  simp only [if_neg hbackslash, if_neg hopen, if_neg hclose]

theorem closing_plain {c : Char} (hbackslash : c ≠ '\\') (hopen : c ≠ '{') (hclose : c ≠ '}')
    (rest : Bytes) (depth i : Nat) :
    closing depth i (encodeChar c ++ rest) = closing depth (i + c.utf8Size) rest := by
  rw [← length_encodeChar]
  by_cases hc : c.toNat < 0x80
  · have hne {d : Char} (hd : d.toNat < 0x80) (h : c ≠ d) :
        UInt8.ofNat c.toNat ≠ UInt8.ofNat d.toNat := by
      intro heq
      apply h
      apply eq_of_mem_encodeChar hd
      rw [← heq, encodeChar_of_lt hc]
      exact List.mem_singleton_self _
    rw [encodeChar_of_lt hc]
    exact closing_cons_plain (hne (d := '\\') (by decide) hbackslash)
      (hne (d := '{') (by decide) hopen) (hne (d := '}') (by decide) hclose) rest depth i
  · exact closing_large (fun b hb => le_of_mem_encodeChar (by omega) hb) rest depth i

theorem closing_open (rest : Bytes) (depth i : Nat) :
    closing depth i (openingBrace :: rest) = closing (depth + 1) (i + 1) rest := by
  rw [closing.eq_def]
  rfl

theorem closing_close (rest : Bytes) (depth i : Nat) :
    closing (depth + 2) i (closingBrace :: rest) = closing (depth + 1) (i + 1) rest := by
  rw [closing.eq_def]
  rfl

/-- A backslash hides a byte, and with it the character: its other bytes are those of no brace. -/
theorem closing_hidden (c : Char) (rest : Bytes) (depth i : Nat) :
    closing depth i (backslash :: (encodeChar c ++ rest)) =
      closing depth (i + 1 + c.utf8Size) rest := by
  obtain ⟨b, bytes, hbytes, -⟩ := encodeChar_head c
  have hlarge : ∀ b ∈ bytes, 0x80 ≤ b.toNat := by
    intro b' hb'
    by_cases hc : c.toNat < 0x80
    · rw [encodeChar_of_lt hc, List.cons.injEq] at hbytes
      rw [← hbytes.2] at hb'
      exact absurd hb' List.not_mem_nil
    · exact le_of_mem_encodeChar (by omega) (hbytes ▸ List.mem_cons_of_mem b hb')
  rw [← length_encodeChar, hbytes, List.cons_append, closing.eq_def]
  simp only [if_true]
  rw [closing_large hlarge, List.length_cons]
  congr 1
  omega

/-- **The braces that are counted are those of the characters.** -/
theorem closing_scans {d e : Nat} {t : Text} (h : Scans d t e) (rest : Bytes) (i : Nat) :
    closing (d + 1) i (encode t ++ rest) = closing (e + 1) (i + size t) rest := by
  induction h generalizing i with
  | nil => rfl
  | plain hbackslash hopen hclose _ ih =>
    rw [encode_cons, List.append_assoc, closing_plain hbackslash hopen hclose, ih, Text.size_cons,
      Nat.add_assoc]
  | hidden _ ih =>
    have hsize : '\\'.utf8Size = 1 := rfl
    rw [encode_backslash, encode_cons, List.cons_append, List.append_assoc, closing_hidden, ih,
      Text.size_cons, Text.size_cons, hsize, ← Nat.add_assoc, ← Nat.add_assoc]
  | opens _ ih =>
    rw [encode_open, List.cons_append, closing_open, ih, Nat.add_assoc]
    rfl
  | closes _ ih =>
    rw [encode_close, List.cons_append, closing_close, ih, Nat.add_assoc]
    rfl

theorem closing_body {body : Text} (h : Scans 0 body 0) (rest : Text) (i : Nat) :
    closing 0 i (encode ('{' :: (body ++ '}' :: rest))) = .ok (some (i + 1 + size body)) := by
  rw [encode_open, encode_append, encode_close, closing_open, closing_scans h, closing.eq_def]
  rfl

theorem closing_unclosed {t : Text} (h : Unclosed 0 t) (i : Nat) :
    closing 0 i (encode ('{' :: t)) = .ok none := by
  rw [encode_open, closing_open]
  obtain ⟨e, hscans | ⟨front, rfl, hfront⟩⟩ := h
  · have hend := closing_scans hscans [] (i + 1)
    rw [List.append_nil] at hend
    exact hend
  · rw [encode_append, closing_scans hfront]
    rfl

/-! ## The scan -/

theorem splitFrom_of_none {rest : Bytes} (h : rest.findIdx? (· == openingBrace) = none)
    (offset : Nat) : splitFrom offset rest = literalsAt offset rest := by
  rw [splitFrom]
  split
  · rfl
  · simp_all

theorem splitFrom_of_some {rest : Bytes} {i : Nat}
    (h : rest.findIdx? (· == openingBrace) = some i) (offset : Nat) :
    splitFrom offset rest = (do
      let before ← literalsAt offset (← cut rest 0 i)
      match ← closing 0 i (rest.drop i) with
      | none => .error (.fault (.unterminated (offset + i)))
      | some j => do
        let body ← read (← cut rest (i + 1) j)
        let wildcard ← (wildcardOf (offset + i) body).mapError .fault
        let _ ← cut rest (j + 1) rest.length
        let after ← splitFrom (offset + (j + 1)) (rest.drop (j + 1))
        return before ++ wildcard :: after) := by
  rw [splitFrom]
  split
  · simp_all
  · rename_i i' h'
    obtain rfl := Option.some.inj (h.symm.trans h')
    rfl

theorem splitFrom_bare {t : Text} (ht : Bare t) (offset : Nat) :
    splitFrom offset (encode t) = .ok (literals t) := by
  have hnone := findIdx?_encode_of_not_mem (d := '{') (by decide) ht.1
  rw [splitFrom_of_none hnone, literalsAt_encode ht.2]

theorem splitFrom_close {literal : Text} (hliteral : Bare literal) (rest : Text) (offset : Nat) :
    splitFrom offset (encode (literal ++ '}' :: rest)) =
      .error (.fault (.unexpectedClose (offset + size literal))) := by
  by_cases hopen : '{' ∈ rest
  · -- The literal text before the opening brace holds the closing one.
    obtain ⟨between, behind, rfl, hbetween⟩ := List.eq_append_cons_of_mem hopen
    have hsplit : literal ++ '}' :: (between ++ '{' :: behind) =
        (literal ++ '}' :: between) ++ '{' :: behind := by
      simp
    have hfront : '{' ∉ literal ++ '}' :: between := by
      simp [hliteral.1, hbetween]
    have hsome := findIdx?_encode (d := '{') (by decide) hfront behind
    rw [hsplit, splitFrom_of_some hsome, cut_encode_front]
    simp only [bind, Except.bind, literalsAt_close hliteral.2]
  · have hall : '{' ∉ literal ++ '}' :: rest := by
      simp [hliteral.1, hopen]
    have hnone := findIdx?_encode_of_not_mem (d := '{') (by decide) hall
    rw [splitFrom_of_none hnone, literalsAt_close hliteral.2]

theorem splitFrom_unclosed {literal t : Text} (hliteral : Bare literal) (ht : Unclosed 0 t)
    (offset : Nat) :
    splitFrom offset (encode (literal ++ '{' :: t)) =
      .error (.fault (.unterminated (offset + size literal))) := by
  have hsome := findIdx?_encode (d := '{') (by decide) hliteral.1 t
  rw [splitFrom_of_some hsome, cut_encode_front, drop_encode, closing_unclosed ht]
  simp only [bind, Except.bind, literalsAt_encode hliteral.2]

theorem splitFrom_wildcard {literal body : Text} (hliteral : Bare literal)
    (hbody : Scans 0 body 0) (rest : Text) (offset : Nat) :
    splitFrom offset (encode (literal ++ '{' :: (body ++ '}' :: rest))) =
      ((wildcardOf (offset + size literal) body).mapError .fault).bind fun wildcard =>
        (splitFrom (offset + size literal + 1 + size body + 1) (encode rest)).map
          (literals literal ++ wildcard :: ·) := by
  have hsome := findIdx?_encode (d := '{') (by decide) hliteral.1 (body ++ '}' :: rest)
  have hopen : '{'.utf8Size = 1 := rfl
  have hclose : '}'.utf8Size = 1 := rfl
  have hbody' : cut (encode (literal ++ '{' :: (body ++ '}' :: rest))) (size literal + 1)
      (size literal + 1 + size body) = .ok (encode body) := by
    have hcut := cut_encode (literal ++ ['{']) body ('}' :: rest)
    rw [List.append_assoc, Text.size_append, Text.size_cons, hopen] at hcut
    exact hcut
  -- The same pattern, as what stands before the rest of it and the rest.
  have hrest : literal ++ '{' :: (body ++ '}' :: rest) =
      (literal ++ '{' :: (body ++ ['}'])) ++ rest := by
    simp
  have hsize : size literal + 1 + size body + 1 = size (literal ++ '{' :: (body ++ ['}'])) := by
    simp [hopen, hclose, Nat.add_assoc]
  rw [splitFrom_of_some hsome, cut_encode_front, drop_encode, closing_body hbody]
  simp only [bind, Except.bind, literalsAt_encode hliteral.2, hbody', read_encode]
  rw [hsize, hrest, cut_encode_behind, drop_encode, ← hsize]
  cases wildcardOf (offset + size literal) body with
  | error f => rfl
  | ok wildcard =>
    simp only [Except.mapError, ← Nat.add_assoc]
    cases splitFrom (offset + size literal + 1 + size body + 1) (encode rest) <;> rfl

/-- **The bytes of a pattern are scanned as its characters are read.** -/
theorem splitFrom_encode (offset : Nat) (t : Text) :
    splitFrom offset (encode t) = (readFrom offset t).mapError .fault := by
  induction hlength : t.length using Nat.strongRecOn generalizing offset t with
  | ind n ih =>
    rcases bare_cases t with ht | ⟨literal, rest, rfl, hliteral⟩ | ⟨literal, rest, rfl, hliteral⟩
    · rw [splitFrom_bare ht, readFrom_bare ht]
      rfl
    · rw [splitFrom_close hliteral, readFrom_close hliteral]
      rfl
    · rcases closed_or_unclosed 0 rest with ⟨body, rest, rfl, hbody⟩ | hrest
      · have hshorter : rest.length < n := by
          rw [← hlength]
          simp
          omega
        rw [splitFrom_wildcard hliteral hbody, readFrom_wildcard hliteral hbody,
          ih rest.length hshorter _ rest rfl]
        cases wildcardOf (offset + size literal) body with
        | error f => rfl
        | ok wildcard =>
          simp only [Except.mapError, Except.bind]
          cases readFrom (offset + size literal + 1 + size body + 1) rest <;> rfl
      · rw [splitFrom_unclosed hliteral hrest, readFrom_unclosed hliteral hrest]
        rfl

end Pattern.Scan

namespace Pattern

/-- When a pattern splits, and into what. -/
structure Grammatical (p : Text) : Prop where
  /-- A pattern splits if and only if it has a layout, and then into the segments of its layout. -/
  splits : ∀ segments, split p = .ok segments ↔
    ∃ layout : Layout, layout.WellFormed ∧ layout.text = p ∧ layout.segments = segments
  unique : ∀ layout layout' : Layout, layout.WellFormed → layout'.WellFormed →
    layout.text = p → layout'.text = p → layout = layout'
  /-- Its bytes are scanned into the same segments, or to the same fault. -/
  scanned : Scan.split (Text.Utf8.encode p) = (split p).mapError fun e => .fault e.fault
  /-- So no brace is ever closed that was not open, and no character is cut. -/
  safe : Scan.split (Text.Utf8.encode p) ≠ .error .underflow ∧
    Scan.split (Text.Utf8.encode p) ≠ .error .severed

theorem split_eq_readFrom (p : Text) : split p = (readFrom 0 p).mapError (Error.mk p) := rfl

theorem Scan.split_encode (p : Text) :
    Scan.split (Text.Utf8.encode p) = (Pattern.split p).mapError fun e => .fault e.fault := by
  rw [Scan.split, Scan.splitFrom_encode, split_eq_readFrom]
  cases readFrom 0 p <;> rfl

/-- **A pattern splits if and only if it has a layout, which is then the only one.** Scanning its
bytes comes to the same, and to nothing else. -/
theorem grammatical (p : Text) : Grammatical p where
  splits := by
    intro segments
    rw [← @readFrom_eq_ok_iff 0 p segments, split_eq_readFrom]
    cases readFrom 0 p <;> simp [Except.mapError]
  unique := by
    intro layout layout' h h' htext htext'
    exact Layout.unique h h' (htext.trans htext'.symm)
  scanned := Scan.split_encode p
  safe := by
    rw [Scan.split_encode]
    cases Pattern.split p <;> simp [Except.mapError]

/-- Braces nest in a body. -/
example :
    split ['/', 'é', '/', '{', 'n', ':', 'x', '{', '3', '}', '}', 'a'] =
      .ok [.literal ['é'], .regex ['n'] ['x', '{', '3', '}'], .literal ['a']] := by
  decide +kernel

/-- A backslash hides the brace behind a body like any other. -/
example :
    split ['{', 'a', '\\', '}'] = .error ⟨['{', 'a', '\\', '}'], .unterminated 0⟩ := by
  decide +kernel

end Pattern

end Routing
