import Routing.Proofs.Rendering

/-!
# Where a pattern is faulty

A pattern is refused for its leftmost fault. Before it stands a pattern that splits, and what begins
there is at fault whatever comes behind it: a closing brace that closes nothing, a wildcard without
a name or with an empty expression. Only an opening brace that is never closed could still be closed
further on.

* `Fault.Begins` — the fault that a text begins with.
* `split_brace` — a brace behind a pattern that splits.
* `split_eq_error_iff` — a pattern is refused for the fault that begins behind one that splits.
* `leftmost` — what an error tells of the pattern and of all others that begin like it.
-/

namespace Routing

theorem Text.Utf8.getElem?_encode {c : Char} (hc : c.toNat < 0x80) (s t : Text) :
    (encode (s ++ c :: t))[size s]? = some (UInt8.ofNat c.toNat) := by
  rw [encode_append, encode_cons, encodeChar_of_lt hc, ← length_encode,
    List.getElem?_append_right (Nat.le_refl _), Nat.sub_self]
  rfl

namespace Pattern

open Text (size)
open Text.Utf8 (encode)

/-- The text begins with the fault, when `i` bytes stand before it. -/
inductive Fault.Begins (i : Nat) : Text → Fault → Prop
  | unexpectedClose {t : Text} : Begins i ('}' :: t) (.unexpectedClose i)
  | unterminated {t : Text} : Unclosed 0 t → Begins i ('{' :: t) (.unterminated i)
  | emptyName {body t : Text} : Scans 0 body 0 → (Text.cut ':' body).1 = [] →
      Begins i ('{' :: (body ++ '}' :: t)) (.emptyName i)
  | emptyRegex {body t name : Text} : Scans 0 body 0 → Text.cut ':' body = (name, some []) →
      name ≠ [] → Begins i ('{' :: (body ++ '}' :: t)) (.emptyRegex name)

theorem wildcardOf_of_unnamed {body : Text} (h : (Text.cut ':' body).1 = []) (i : Nat) :
    wildcardOf i body = .error (.emptyName i) := by
  unfold wildcardOf
  generalize Text.cut ':' body = cut at h
  obtain ⟨name, raw⟩ := cut
  obtain rfl : name = [] := h
  rfl

theorem wildcardOf_of_unexpressed {body name : Text} (h : Text.cut ':' body = (name, some []))
    (hname : name ≠ []) (i : Nat) : wildcardOf i body = .error (.emptyRegex name) := by
  unfold wildcardOf
  rw [h]
  cases name with
  | nil => exact absurd rfl hname
  | cons c name => rfl

/-- The bodies that make no wildcard. -/
theorem begins_of_wildcardOf {i : Nat} {body : Text} {f : Fault} (hbody : Scans 0 body 0)
    (h : wildcardOf i body = .error f) (t : Text) :
    Fault.Begins i ('{' :: (body ++ '}' :: t)) f := by
  by_cases hname : (Text.cut ':' body).1 = []
  · rw [wildcardOf_of_unnamed hname] at h
    cases h
    exact .emptyName hbody hname
  by_cases hraw : (Text.cut ':' body).2 = some []
  · have hcut : Text.cut ':' body = ((Text.cut ':' body).1, some []) := Prod.ext rfl hraw
    rw [wildcardOf_of_unexpressed hcut hname] at h
    cases h
    exact .emptyRegex hbody hcut hname
  · rw [wildcardOf_eq_ok_iff.2 ⟨hname, hraw, rfl⟩] at h
    cases h

/-! ## Reading -/

/-- What begins with a fault is refused for it. -/
theorem Fault.Begins.readFrom {i : Nat} {t : Text} {f : Fault} (h : Fault.Begins i t f) :
    readFrom i t = .error f := by
  cases h with
  | @unexpectedClose t => exact readFrom_close bare_nil t i
  | unterminated ht => exact readFrom_unclosed bare_nil ht i
  | @emptyName body t hbody hname =>
    have hread := readFrom_wildcard bare_nil hbody t i
    rw [wildcardOf_of_unnamed hname] at hread
    exact hread
  | @emptyRegex body t name hbody hcut hname =>
    have hread := readFrom_wildcard bare_nil hbody t i
    rw [wildcardOf_of_unexpressed hcut hname] at hread
    exact hread

/-- **What is refused begins with a fault somewhere**, and is read without one up to there. -/
theorem exists_begins {offset : Nat} {t : Text} {f : Fault} (h : readFrom offset t = .error f) :
    ∃ front rest segments, t = front ++ rest ∧ readFrom offset front = .ok segments ∧
      Fault.Begins (offset + size front) rest f := by
  induction hlength : t.length using Nat.strongRecOn generalizing offset t with
  | ind n ih =>
    rcases bare_cases t with ht | ⟨literal, rest, rfl, hliteral⟩ | ⟨literal, rest, rfl, hliteral⟩
    · rw [readFrom_bare ht] at h
      cases h
    · rw [readFrom_close hliteral] at h
      cases h
      exact ⟨literal, _, _, rfl, readFrom_bare hliteral offset, .unexpectedClose⟩
    rcases closed_or_unclosed 0 rest with ⟨body, rest, rfl, hbody⟩ | hrest
    · rw [readFrom_wildcard hliteral hbody] at h
      cases hwildcard : wildcardOf (offset + size literal) body with
      | error f' =>
        rw [hwildcard] at h
        cases h
        exact ⟨literal, _, _, rfl, readFrom_bare hliteral offset,
          begins_of_wildcardOf hbody hwildcard rest⟩
      | ok wildcard =>
        -- The wildcard is in order, so the fault is in the rest.
        rw [hwildcard, Except.bind] at h
        cases hbehind : readFrom (offset + size literal + 1 + size body + 1) rest with
        | ok segments =>
          rw [hbehind] at h
          cases h
        | error f' =>
          rw [hbehind] at h
          cases h
          have hshorter : rest.length < n := by
            rw [← hlength]
            simp
            omega
          obtain ⟨front, rest, segments, rfl, hfront, hbegins⟩ := ih _ hshorter hbehind rfl
          have hsize : offset + size literal + 1 + size body + 1 + size front =
              offset + size (literal ++ '{' :: (body ++ '}' :: front)) := by
            have hopen : '{'.utf8Size = 1 := rfl
            have hclose : '}'.utf8Size = 1 := rfl
            simp only [Text.size_append, Text.size_cons, hopen, hclose]
            omega
          refine ⟨literal ++ '{' :: (body ++ '}' :: front), rest,
            literals literal ++ wildcard :: segments, by simp, ?_, hsize ▸ hbegins⟩
          rw [readFrom_wildcard hliteral hbody, hwildcard, Except.bind, hfront]
          rfl
    · rw [readFrom_unclosed hliteral hrest] at h
      cases h
      exact ⟨literal, _, _, rfl, readFrom_bare hliteral offset, .unterminated hrest⟩

/-! ## Splitting -/

/-- **Behind a pattern that splits a brace is read as if it stood at the beginning.** -/
theorem split_brace {p : Text} {a : List Segment} (h : split p = .ok a) {brace : Char}
    (hbrace : brace = '{' ∨ brace = '}') (t : Text) :
    split (p ++ brace :: t) =
      ((readFrom (size p) (brace :: t)).map (a ++ ·)).mapError (Error.mk (p ++ brace :: t)) := by
  obtain ⟨r, piece, hr, hplace, rfl⟩ := split_eq_ok_iff.1 h
  have hoffset : r.offset = size p := by
    simpa [Reader.start] using Reader.offset_run hr
  have hstep : r.step brace =
      (⟨size p, closePiece r.segments piece, .literal []⟩ : Reader).step brace := by
    rcases hbrace with rfl | rfl <;> simp [Reader.step, hplace, hoffset, closePiece]
  have hrun : r.run (brace :: t) =
      (⟨size p, closePiece r.segments piece, .literal []⟩ : Reader).run (brace :: t) := by
    simp only [Reader.run, hstep]
  rw [split, Reader.run_append, hr, ← finish_run_behind, ← hrun]
  rfl

theorem Fault.Begins.exists_brace {i : Nat} {t : Text} {f : Fault} (h : Fault.Begins i t f) :
    ∃ brace rest, (brace = '{' ∨ brace = '}') ∧ t = brace :: rest := by
  cases h with
  | unexpectedClose => exact ⟨_, _, Or.inr rfl, rfl⟩
  | unterminated _ => exact ⟨_, _, Or.inl rfl, rfl⟩
  | emptyName _ _ => exact ⟨_, _, Or.inl rfl, rfl⟩
  | emptyRegex _ _ _ => exact ⟨_, _, Or.inl rfl, rfl⟩

theorem split_of_begins {front rest : Text} {a : List Segment} {f : Fault}
    (hfront : split front = .ok a) (h : Fault.Begins (size front) rest f) :
    split (front ++ rest) = .error ⟨front ++ rest, f⟩ := by
  obtain ⟨brace, t, hbrace, rfl⟩ := h.exists_brace
  rw [split_brace hfront hbrace, h.readFrom]
  rfl

/-- **A pattern is refused for the fault that begins behind a pattern that splits.** -/
theorem split_eq_error_iff {p : Text} {e : Error} :
    split p = .error e ↔ e.pattern = p ∧ ∃ front rest a, p = front ++ rest ∧
      split front = .ok a ∧ Fault.Begins (size front) rest e.fault := by
  constructor
  · intro h
    rw [split_eq_readFrom] at h
    cases hread : readFrom 0 p with
    | ok segments =>
      rw [hread] at h
      cases h
    | error f =>
      rw [hread] at h
      cases h
      obtain ⟨front, rest, a, rfl, hfront, hbegins⟩ := exists_begins hread
      rw [Nat.zero_add] at hbegins
      exact ⟨rfl, front, rest, a, rfl, split_eq_ok_iff_readFrom.2 hfront, hbegins⟩
  · rintro ⟨hpattern, front, rest, a, rfl, hfront, hbegins⟩
    rw [split_of_begins hfront hbegins, ← hpattern]

/-! ## What an error tells -/

/-- At the index of a pattern stands this brace, and what is before it splits. -/
structure BraceAt (p : Text) (i : Nat) (brace : UInt8) (front : Text) : Prop where
  byte : (encode p)[i]? = some brace
  boundary : Scan.isBoundary (encode p) i = true
  before : Scan.cut (encode p) 0 i = .ok (encode front)
  splits : ∃ segments, split front = .ok segments

/-- An error points at the leftmost fault of a pattern. Every pattern that begins like this one, up
to the end of what is at fault, has the same fault. -/
structure Leftmost (p : Text) (e : Error) : Prop where
  pattern : e.pattern = p
  unexpectedClose : ∀ i, e.fault = .unexpectedClose i → ∃ front back,
    p = front ++ '}' :: back ∧ BraceAt p i Scan.closingBrace front ∧
      ∀ t, split (front ++ '}' :: t) = .error ⟨front ++ '}' :: t, .unexpectedClose i⟩
  emptyName : ∀ i, e.fault = .emptyName i → ∃ front body back,
    p = front ++ '{' :: (body ++ '}' :: back) ∧ BraceAt p i Scan.openingBrace front ∧
      Scans 0 body 0 ∧ (Text.cut ':' body).1 = [] ∧
        ∀ t, split (front ++ '{' :: (body ++ '}' :: t)) =
          .error ⟨front ++ '{' :: (body ++ '}' :: t), .emptyName i⟩
  emptyRegex : ∀ name, e.fault = .emptyRegex name → ∃ front body back segments,
    p = front ++ '{' :: (body ++ '}' :: back) ∧ split front = .ok segments ∧
      Scans 0 body 0 ∧ body = name ++ [':'] ∧
        ∀ t, split (front ++ '{' :: (body ++ '}' :: t)) =
          .error ⟨front ++ '{' :: (body ++ '}' :: t), .emptyRegex name⟩
  /-- No byte closes the brace, and no text behind it is a body with a closing brace after it. -/
  unterminated : ∀ i, e.fault = .unterminated i → ∃ front back,
    p = front ++ '{' :: back ∧ BraceAt p i Scan.openingBrace front ∧
      Scan.closing 0 i ((encode p).drop i) = .ok none ∧
        ∀ body rest, back = body ++ '}' :: rest → ¬ Scans 0 body 0

theorem Unclosed.not_scans {t : Text} (h : Unclosed 0 t) {body rest : Text}
    (ht : t = body ++ '}' :: rest) : ¬ Scans 0 body 0 := by
  intro hbody
  have hnone := Scan.closing_unclosed h 0
  rw [ht, Scan.closing_body hbody] at hnone
  cases hnone

theorem braceAt_of_split {front : Text} {a : List Segment} (h : split front = .ok a)
    {brace : Char} (hbrace : brace.toNat < 0x80) (t : Text) :
    BraceAt (front ++ brace :: t) (size front) (UInt8.ofNat brace.toNat) front where
  byte := Text.Utf8.getElem?_encode hbrace front t
  boundary := Scan.isBoundary_encode front (brace :: t)
  before := Scan.cut_encode_front front (brace :: t)
  splits := ⟨a, h⟩

/-- **An error points at the leftmost fault.** -/
theorem leftmost {p : Text} {e : Error} (h : split p = .error e) : Leftmost p e := by
  obtain ⟨hpattern, front, rest, a, rfl, hfront, hbegins⟩ := split_eq_error_iff.1 h
  have hopen (t : Text) : BraceAt (front ++ '{' :: t) (size front) Scan.openingBrace front :=
    braceAt_of_split hfront (by decide) t
  have hclose (t : Text) : BraceAt (front ++ '}' :: t) (size front) Scan.closingBrace front :=
    braceAt_of_split hfront (by decide) t
  refine ⟨hpattern, fun i hi => ?_, fun i hi => ?_, fun name hn => ?_, fun i hi => ?_⟩
  · rw [hi] at hbegins
    cases hbegins with
    | @unexpectedClose back =>
      exact ⟨front, back, rfl, hclose back, fun t => split_of_begins hfront .unexpectedClose⟩
  · rw [hi] at hbegins
    cases hbegins with
    | @emptyName body back hbody hname =>
      exact ⟨front, body, back, rfl, hopen _, hbody, hname,
        fun t => split_of_begins hfront (.emptyName hbody hname)⟩
  · rw [hn] at hbegins
    cases hbegins with
    | @emptyRegex body back _ hbody hcut hname =>
      have hwhole := Text.cut_append ':' body
      rw [hcut] at hwhole
      exact ⟨front, body, back, a, rfl, hfront, hbody, hwhole.symm,
        fun t => split_of_begins hfront (.emptyRegex hbody hcut hname)⟩
  · rw [hi] at hbegins
    cases hbegins with
    | @unterminated back hback =>
      refine ⟨front, back, rfl, hopen back, ?_, fun body rest ht => hback.not_scans ht⟩
      rw [Scan.drop_encode]
      exact Scan.closing_unclosed hback (size front)

/-- In `/é/{:x}}` the wildcard without a name comes before the brace that closes nothing. In
`/é/{a{\}}` one closing brace is hidden, and the other one closes the inner brace. -/
theorem leftmost_nested :
    let p := ['/', 'é', '/', '{', ':', 'x', '}', '}']
    let q := ['/', 'é', '/', '{', 'a', '{', '\\', '}', '}']
    split p = .error ⟨p, .emptyName 4⟩ ∧ Leftmost p ⟨p, .emptyName 4⟩ ∧
      split q = .error ⟨q, .unterminated 4⟩ ∧ Leftmost q ⟨q, .unterminated 4⟩ := by
  intro p q
  have hp : split p = .error ⟨p, .emptyName 4⟩ := by decide +kernel
  have hq : split q = .error ⟨q, .unterminated 4⟩ := by decide +kernel
  exact ⟨hp, leftmost hp, hq, leftmost hq⟩

end Pattern

end Routing
