import Routing.Proofs.Scanning

/-!
# Writing patterns

A slash outside of wildcards is where a pattern can be taken apart: what stands before it and what
stands behind it are split on their own. So segments that are written behind slashes are read back
one by one, a literal up to the next slash, a wildcard up to the brace that closes it.

* `slash_separates` — a pattern behind another one and a slash.
* `split_display` — a segment of a pattern is read back from what it is displayed as.
* `split_render` — so are segments from their rendering.
-/

namespace Routing.Pattern

/-- **What stands behind a pattern and a slash is split on its own.** Its segments come behind those
of the pattern, and its fault is the same, that many bytes further on. -/
theorem slash_separates {p : Text} {a : List Segment} (h : split p = .ok a) (q : Text) :
    (∀ b, split q = .ok b → split (p ++ '/' :: q) = .ok (a ++ b)) ∧
      ∀ e, split q = .error e → split (p ++ '/' :: q) =
        .error ⟨p ++ '/' :: q, e.fault.shift ((Text.Utf8.encode p).length + 1)⟩ := by
  have happend := split_append h q
  rw [Text.Utf8.length_encode]
  constructor
  · intro b hb
    rw [happend, hb]
    rfl
  · intro e he
    rw [happend, he]
    rfl

/-- Behind `/é/{n:x{3}}` the pattern `b` is one more literal, and two others keep their faults: an
empty expression the name of its wildcard, a closing brace the two bytes before it. -/
theorem slash_separates_nested :
    let p := ['/', 'é', '/', '{', 'n', ':', 'x', '{', '3', '}', '}']
    let a := [Segment.literal ['é'], .regex ['n'] ['x', '{', '3', '}']]
    split p = .ok a ∧
      split (p ++ '/' :: ['b']) = .ok (a ++ [.literal ['b']]) ∧
      split (p ++ '/' :: ['{', 'y', ':', '}']) =
        .error ⟨p ++ '/' :: ['{', 'y', ':', '}'], .emptyRegex ['y']⟩ ∧
      split (p ++ '/' :: ['é', '}']) = .error ⟨p ++ '/' :: ['é', '}'], .unexpectedClose 15⟩ := by
  intro p a
  have hp : split p = .ok a := by decide +kernel
  have hplain : split ['b'] = .ok [.literal ['b']] := rfl
  have hregex : split ['{', 'y', ':', '}'] = .error ⟨['{', 'y', ':', '}'], .emptyRegex ['y']⟩ := rfl
  have hclose : split ['é', '}'] = .error ⟨['é', '}'], .unexpectedClose 2⟩ := by decide +kernel
  exact ⟨hp, (slash_separates hp _).1 _ hplain, (slash_separates hp _).2 _ hregex,
    (slash_separates hp _).2 _ hclose⟩

/-! ## Segments -/

theorem split_eq_ok_iff_readFrom {p : Text} {segments : List Segment} :
    split p = .ok segments ↔ readFrom 0 p = .ok segments := by
  rw [split_eq_readFrom]
  cases readFrom 0 p <;> simp [Except.mapError]

theorem split_literal {text : Text} (h : (Segment.literal text).Proper) :
    split text = .ok [.literal text] := by
  obtain ⟨hne, hslash, hbare⟩ := h
  have hparts : literals text = [.literal text] :=
    congrArg (List.map Segment.literal) (Text.parts_of_not_mem hne hslash)
  rw [split_eq_readFrom, readFrom_bare hbare, hparts]
  rfl

theorem bare_nil : Bare [] := ⟨List.not_mem_nil, List.not_mem_nil⟩

/-- A body between two braces is a pattern of one wildcard. -/
theorem split_body {body : Text} (h : IsBody body) :
    split ('{' :: (body ++ ['}'])) = .ok [wildcardIn body] := by
  have hlayout : (Layout.wildcard [] body (.last [])).WellFormed := ⟨bare_nil, h, bare_nil⟩
  have hread := Layout.readFrom_text hlayout 0
  rw [split_eq_readFrom]
  exact congrArg (Except.mapError (Error.mk ('{' :: (body ++ ['}'])))) hread

/-- A wildcard is displayed as the body it was read from, between its braces. -/
theorem display_wildcardIn (body : Text) :
    (wildcardIn body).display = '{' :: (body ++ ['}']) := by
  have hcut := Text.cut_append ':' body
  unfold wildcardIn
  generalize Text.cut ':' body = cut at hcut
  rcases cut with ⟨name, _ | raw⟩
  · have hbody : name = body := by simpa using hcut
    simp [Segment.display, hbody]
  · have hbody : name ++ ':' :: raw = body := by simpa using hcut
    simp [Segment.display, ← hbody]

theorem Layout.exists_body {layout : Layout} (h : layout.WellFormed) {s : Segment}
    (hs : s ∈ layout.segments) (hw : s.isWildcard) : ∃ body, IsBody body ∧ wildcardIn body = s := by
  have hliteral {text : Text} : s ∉ literals text := by
    intro hmem
    obtain ⟨piece, -, rfl⟩ := List.mem_map.1 hmem
    cases hw
  induction layout with
  | last literal => exact absurd hs hliteral
  | wildcard literal body behind ih =>
    obtain ⟨-, hbody, hbehind⟩ := h
    rcases List.mem_append.1 hs with hs | hs
    · exact absurd hs hliteral
    rcases List.mem_cons.1 hs with rfl | hs
    · exact ⟨body, hbody, rfl⟩
    · exact ih hbehind hs

/-- **A segment of a pattern is read back from what it is displayed as.** -/
theorem split_display {p : Text} {segments : List Segment} (h : split p = .ok segments)
    {s : Segment} (hs : s ∈ segments) : split s.display = .ok [s] := by
  by_cases hw : s.isWildcard
  · obtain ⟨layout, hlayout, -, rfl⟩ := exists_layout (split_eq_ok_iff_readFrom.1 h)
    obtain ⟨body, hbody, rfl⟩ := Layout.exists_body hlayout hs hw
    rw [display_wildcardIn, split_body hbody]
  · cases s with
    | literal text => exact split_literal (split_proper h _ hs)
    | wildcard name => exact absurd rfl hw
    | regex name raw => exact absurd rfl hw

/-! ## Renderings -/

/-- Segments behind slashes are read back one by one. -/
theorem split_slashed {segments : List Segment}
    (h : ∀ s ∈ segments, split s.display = .ok [s]) :
    split (segments.map fun s => '/' :: s.display).flatten = .ok segments := by
  induction segments with
  | nil => rfl
  | cons s rest ih =>
    obtain ⟨hs, hrest⟩ := List.forall_mem_cons.1 h
    have hbehind := ih hrest
    rw [List.map_cons, List.flatten_cons, List.cons_append, split_slash]
    cases rest with
    | nil => simpa using hs
    | cons t rest =>
      -- The slash of the next segment ends this one.
      rw [List.map_cons, List.flatten_cons, List.cons_append, split_slash] at hbehind
      rw [List.map_cons, List.flatten_cons, List.cons_append, split_append hs, hbehind]
      rfl

/-- **Segments that are read back from what they are displayed as are read back from their
rendering.** -/
theorem split_render {segments : List Segment} (h : ∀ s ∈ segments, split s.display = .ok [s]) :
    split (render segments) = .ok segments := by
  cases segments with
  | nil => rfl
  | cons s rest => exact split_slashed h

end Routing.Pattern
