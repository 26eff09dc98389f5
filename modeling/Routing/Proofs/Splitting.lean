import Routing.Pattern.Split
import Routing.Proofs.Soundness

/-!
# Splitting patterns

* `Pattern.split_proper` — a pattern splits into proper segments.
* `Pattern.Reader.run_behind` — a reader does the same behind what was read before.
* `Pattern.split_append` — patterns joined by a slash split into the segments of both.
-/

namespace Routing.Pattern

theorem closePiece_proper {segments : List Segment} {piece : Text}
    (hs : ∀ s ∈ segments, s.Proper) (hp : '/' ∉ piece ∧ '{' ∉ piece ∧ '}' ∉ piece) :
    ∀ s ∈ closePiece segments piece, s.Proper := by
  unfold closePiece
  split
  · exact hs
  · rename_i hne
    intro s hm
    rcases List.mem_append.1 hm with hm | hm
    · exact hs s hm
    · rw [List.mem_singleton.1 hm]
      exact ⟨hne, hp⟩

theorem wildcardOf_proper {index : Nat} {body : Text} {s : Segment}
    (h : wildcardOf index body = .ok s) : s.Proper := by
  have hm := Text.not_mem_cut ':' body
  unfold wildcardOf at h
  split at h
  · cases h
  · rename_i name hne hcut
    cases h
    rw [hcut] at hm
    exact ⟨hne, hm⟩
  · cases h
  · rename_i name raw hne hraw hcut
    cases h
    rw [hcut] at hm
    exact ⟨hne, hm, hraw⟩

/-- What was read so far can be part of a list of proper segments. -/
structure Reader.Proper (r : Reader) : Prop where
  segments : ∀ s ∈ r.segments, s.Proper
  piece : ∀ piece, r.place = .literal piece → '/' ∉ piece ∧ '{' ∉ piece ∧ '}' ∉ piece

theorem Reader.step_proper {r r' : Reader} {c : Char} (hr : r.Proper) (h : r.step c = .ok r') :
    r'.Proper := by
  obtain ⟨offset, segments, place⟩ := r
  cases place with
  | literal piece =>
    have hp := hr.piece piece rfl
    have hclose := closePiece_proper hr.segments hp
    simp only [step] at h
    split at h
    · cases h; exact ⟨hclose, by simp⟩
    split at h
    · cases h
    split at h
    · cases h; exact ⟨hclose, by simp⟩
    · rename_i ho hc hs
      cases h
      refine ⟨hr.segments, fun q hq => ?_⟩
      obtain rfl := Place.literal.inj hq
      simp [hp, Ne.symm ho, Ne.symm hc, Ne.symm hs]
  | wildcard start body depth =>
    simp only [step] at h
    split at h
    · cases h; exact ⟨hr.segments, by simp⟩
    split at h
    · cases h; exact ⟨hr.segments, by simp⟩
    split at h
    · cases depth with
      | zero =>
        obtain ⟨s, hw, hs⟩ := bind_eq_ok_iff.1 h
        cases hs
        refine ⟨fun t ht => ?_, fun q hq => ?_⟩
        · rcases List.mem_append.1 ht with ht | ht
          · exact hr.segments t ht
          · rw [List.mem_singleton.1 ht]
            exact wildcardOf_proper hw
        · obtain rfl := Place.literal.inj hq
          simp
      | succ depth => cases h; exact ⟨hr.segments, by simp⟩
    · cases h; exact ⟨hr.segments, by simp⟩
  | hidden start body depth => cases h; exact ⟨hr.segments, by simp⟩

theorem Reader.run_proper {r r' : Reader} {t : Text} (hr : r.Proper) (h : r.run t = .ok r') :
    r'.Proper := by
  induction t generalizing r with
  | nil => cases h; exact hr
  | cons c t ih =>
    obtain ⟨next, hs, hrest⟩ := bind_eq_ok_iff.1 h
    exact ih (step_proper hr hs) hrest

/-- A pattern that splits was read to its end, which is in literal text. -/
theorem split_eq_ok_iff {p : Text} {segments : List Segment} :
    split p = .ok segments ↔ ∃ r piece, Reader.start.run p = .ok r ∧ r.place = .literal piece ∧
      segments = closePiece r.segments piece := by
  unfold split
  cases hr : Reader.start.run p with
  | error e => simp [Except.bind, Except.mapError]
  | ok r =>
    obtain ⟨offset, before, place⟩ := r
    cases place <;> simp [Except.bind, Except.mapError, Reader.finish, eq_comm]

/-- **A pattern splits into proper segments.** -/
theorem split_proper {p : Text} {segments : List Segment} (h : split p = .ok segments) :
    ∀ s ∈ segments, s.Proper := by
  obtain ⟨r, piece, hr, hp, rfl⟩ := split_eq_ok_iff.1 h
  have hstart : Reader.start.Proper := by
    refine ⟨by simp [Reader.start], fun piece hp => ?_⟩
    obtain rfl := Place.literal.inj hp
    simp
  have hproper := Reader.run_proper hstart hr
  exact closePiece_proper hproper.segments (hproper.piece piece hp)

/-! ## Reading on behind a slash -/

/-- The fault in a text that `k` bytes stand before. -/
def Fault.shift (k : Nat) : Fault → Fault
  | emptyName index => emptyName (index + k)
  | emptyRegex name => emptyRegex name
  | unterminated index => unterminated (index + k)
  | unexpectedClose index => unexpectedClose (index + k)

def Place.shift (k : Nat) : Place → Place
  | literal piece => literal piece
  | wildcard start body depth => wildcard (start + k) body depth
  | hidden start body depth => hidden (start + k) body depth

/-- The reader behind `k` bytes that hold the segments `before`. -/
def Reader.behind (before : List Segment) (k : Nat) (r : Reader) : Reader :=
  ⟨r.offset + k, before ++ r.segments, r.place.shift k⟩

theorem closePiece_append (before segments : List Segment) (piece : Text) :
    closePiece (before ++ segments) piece = before ++ closePiece segments piece := by
  unfold closePiece
  split <;> simp

theorem wildcardOf_shift (index k : Nat) (body : Text) :
    wildcardOf (index + k) body = (wildcardOf index body).mapError (Fault.shift k) := by
  unfold wildcardOf
  split <;> rfl

theorem Reader.step_behind (before : List Segment) (k : Nat) (r : Reader) (c : Char) :
    (r.behind before k).step c =
      ((r.step c).map (behind before k)).mapError (Fault.shift k) := by
  obtain ⟨offset, segments, place⟩ := r
  have hoff : offset + k + c.utf8Size = offset + c.utf8Size + k := Nat.add_right_comm ..
  cases place with
  | literal piece =>
    simp only [behind, Place.shift, step, hoff, closePiece_append]
    split
    · rfl
    split
    · rfl
    split <;> rfl
  | wildcard start body depth =>
    simp only [behind, Place.shift, step, hoff, wildcardOf_shift]
    split
    · rfl
    split
    · rfl
    split
    · cases depth with
      | zero =>
        cases hw : wildcardOf start body with
        | error e => rfl
        | ok s =>
          simp only [Except.mapError, bind, Except.bind, Except.map, behind, Place.shift,
            List.append_assoc]
      | succ depth => rfl
    · rfl
  | hidden start body depth =>
    simp only [behind, Place.shift, step, hoff]
    rfl

/-- **A reader does the same behind what was read before.** -/
theorem Reader.run_behind (before : List Segment) (k : Nat) (r : Reader) (t : Text) :
    (r.behind before k).run t = ((r.run t).map (behind before k)).mapError (Fault.shift k) := by
  induction t generalizing r with
  | nil => rfl
  | cons c t ih =>
    simp only [run, step_behind]
    cases r.step c with
    | error e => rfl
    | ok next => exact ih next

theorem Reader.finish_behind (before : List Segment) (k : Nat) (r : Reader) :
    (r.behind before k).finish = (r.finish.map (before ++ ·)).mapError (Fault.shift k) := by
  obtain ⟨offset, segments, place⟩ := r
  cases place with
  | literal piece => simp only [behind, Place.shift, finish, closePiece_append]; rfl
  | wildcard start body depth => rfl
  | hidden start body depth => rfl

theorem Reader.offset_step {r r' : Reader} {c : Char} (h : r.step c = .ok r') :
    r'.offset = r.offset + c.utf8Size := by
  obtain ⟨offset, segments, place⟩ := r
  cases place with
  | literal piece =>
    simp only [step] at h
    split at h
    · cases h; rfl
    split at h
    · cases h
    split at h <;> cases h <;> rfl
  | wildcard start body depth =>
    simp only [step] at h
    split at h
    · cases h; rfl
    split at h
    · cases h; rfl
    split at h
    · cases depth with
      | zero => cases hw : wildcardOf start body <;> simp only [hw] at h <;> cases h; rfl
      | succ depth => cases h; rfl
    · cases h; rfl
  | hidden start body depth => cases h; rfl

theorem Reader.offset_run {r r' : Reader} {t : Text} (h : r.run t = .ok r') :
    r'.offset = r.offset + Text.size t := by
  induction t generalizing r with
  | nil => cases h; rfl
  | cons c t ih =>
    obtain ⟨next, hs, hrest⟩ := bind_eq_ok_iff.1 h
    rw [ih hrest, offset_step hs, Text.size_cons, Nat.add_assoc]

/-- **Patterns joined by a slash split into the segments of both.** A fault in the second one stays
what it is, that many bytes further on. -/
theorem split_append {p : Text} {a : List Segment} (h : split p = .ok a) (q : Text) :
    split (p ++ '/' :: q) =
      ((split q).map (a ++ ·)).mapError fun e =>
        ⟨p ++ '/' :: q, e.fault.shift (Text.size p + 1)⟩ := by
  obtain ⟨r, piece, hr, hp, rfl⟩ := split_eq_ok_iff.1 h
  have hoff : r.offset = Text.size p := by
    simpa [Reader.start] using Reader.offset_run hr
  have hslash : r.step '/' =
      .ok (Reader.start.behind (closePiece r.segments piece) (Text.size p + 1)) := by
    simp [Reader.step, hp, Reader.start, Reader.behind, Place.shift, ← hoff, Char.utf8Size]
  have hrun : Reader.start.run (p ++ '/' :: q) =
      (Reader.start.behind (closePiece r.segments piece) (Text.size p + 1)).run q := by
    rw [Reader.run_append, hr]
    simp only [Except.bind, Reader.run, hslash]
    rfl
  unfold split
  rw [hrun, Reader.run_behind]
  cases Reader.start.run q with
  | error e => rfl
  | ok last =>
    simp only [Except.map, Except.mapError, Except.bind, Reader.finish_behind]
    cases last.finish <;> rfl

/-- A slash at the beginning of a pattern changes nothing. -/
theorem split_slash {q : Text} {segments : List Segment} :
    split ('/' :: q) = .ok segments ↔ split q = .ok segments := by
  have happend := split_append (p := []) (a := []) rfl q
  rw [List.nil_append] at happend
  rw [happend]
  cases split q <;> simp [Except.map, Except.mapError]

end Routing.Pattern
