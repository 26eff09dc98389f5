import Routing.Proofs.Refusing
import Routing.Tree.Cache

/-!
# Rehearsals

Rehearsing tells whether a tree would grow, and finds the node that is there already, whatever has
been read. It looks for a clash before it reads what is behind, which growing does the other way
round; so when there are two reasons to refuse some segments, each tells another one.

* `Node.TwiceRefused` — a branch would clash, and something behind it cannot be read.
* `Node.Sound.rehearse_error_iff` — with one reason at most, growing tells the same.
* `Node.Sound.errors_of_twiceRefused` — what each of them tells otherwise.
* `Router.Reachable.rehearses` — rehearsing and growing from any node of a router.
-/

namespace Routing

section

variable [Regex.Engine]

/-! ## Errors -/

/-- What clashes with something that can be read has the same expression, or none. -/
theorem Segment.Clashes.readable {s t : Segment} (h : s.Clashes t) (ht : t.Readable) :
    s.Readable := by
  cases s with
  | literal text => exact ⟨.literal text, rfl⟩
  | wildcard name => exact ⟨.wildcard name, rfl⟩
  | regex name raw =>
    cases t with
    | regex name' raw' =>
      obtain ⟨rfl, -⟩ := h
      obtain ⟨edge, hedge⟩ := ht
      cases hraw : Constraint.ofRaw? raw with
      | none => simp [Edge.ofSegment, hraw] at hedge
      | some c => exact ⟨.regex name c, by simp [Edge.ofSegment, hraw]⟩
    | literal text => cases h
    | wildcard name' => cases h

/-- The error tells that a wildcard for `s` clashes with one for `t`. -/
def TreeError.TellsClash (s t : Segment) : TreeError → Prop
  | duplicateWildcard existing requested => s = .wildcard requested ∧ t = .wildcard existing
  | paramNameConflict raw existing requested =>
    s = .regex requested raw ∧ t = .regex existing raw
  | regexInvalid _ _ => False

theorem Edge.tellsClash_of_conflict? {new old : Edge} {e : TreeError}
    (h : new.conflict? old = some e) : e.TellsClash new.segment old.segment := by
  cases old with
  | literal id => cases h
  | wildcard existing =>
    cases new with
    | wildcard requested =>
      cases h
      exact ⟨rfl, rfl⟩
    | literal id => cases h
    | regex name c => cases h
  | regex existing c =>
    cases new with
    | regex requested c' =>
      simp only [conflict?, Option.ite_none_right_eq_some, Option.some.injEq] at h
      obtain ⟨hraw, rfl⟩ := h
      exact ⟨rfl, by simp [segment, hraw]⟩
    | literal id => cases h
    | wildcard name => cases h

omit [Regex.Engine] in
theorem TreeError.TellsClash.clashes {e : TreeError} {s t : Segment} (h : e.TellsClash s t)
    (hne : s ≠ t) : s.Clashes t := by
  cases e with
  | duplicateWildcard existing requested =>
    obtain ⟨rfl, rfl⟩ := h
    simpa [Segment.Clashes] using hne
  | paramNameConflict raw existing requested =>
    obtain ⟨rfl, rfl⟩ := h
    simpa [Segment.Clashes] using hne
  | regexInvalid name raw => cases h

theorem Branches.tellsClash_of_refuseConflict {ρ : Type} {b : Branches ρ} {new : Edge}
    {e : TreeError} (h : b.refuseConflict new = .error e) :
    ∃ t ∈ b.segments, e.TellsClash new.segment t := by
  unfold refuseConflict at h
  cases hfind : b.edges.findSome? new.conflict? with
  | none => simp [hfind] at h
  | some e' =>
    simp only [hfind, Except.error.injEq] at h
    subst h
    obtain ⟨old, hold, hconflict⟩ := List.exists_of_findSome?_eq_some hfind
    exact ⟨old.segment, List.mem_map_of_mem hold, Edge.tellsClash_of_conflict? hconflict⟩

/-- A new edge that clashes with a branch is refused for a clash. -/
theorem Branches.exists_clash {ρ : Type} {b : Branches ρ} {new : Edge}
    (hm : new.segment ∉ b.segments) {t : Segment} (ht : t ∈ b.segments)
    (hclash : new.segment.Clashes t) : ∃ clash, b.refuseConflict new = .error clash ∧
      ∃ t ∈ b.segments, clash.TellsClash new.segment t := by
  cases hc : b.refuseConflict new with
  | error clash => exact ⟨clash, rfl, tellsClash_of_refuseConflict hc⟩
  | ok _ => exact absurd hclash ((refuseConflict_eq_ok_iff hm).1 hc t ht)

/-- Something that cannot be read is told of, or something before it. -/
theorem exists_unread {segments : List Segment} (h : ∃ u ∈ segments, ¬ u.Readable) :
    ∃ unread, readable segments = .error unread := by
  obtain ⟨u, hu, hunread⟩ := h
  cases hr : readable segments with
  | error unread => exact ⟨unread, rfl⟩
  | ok _ => exact absurd (readable_eq_ok_iff.1 hr u hu) hunread

namespace Node

variable {ρ : Type}

/-! ## Two reasons -/

/-- A new branch for the segments would clash with one that is there, and something behind it
cannot be read. -/
def TwiceRefused (n : Node ρ) (segments : List Segment) : Prop :=
  ∃ position s rest, segments = position ++ s :: rest ∧
    (∃ t ∈ n.branchesAt position, s.Clashes t) ∧ ∃ u ∈ rest, ¬ u.Readable

theorem not_twiceRefused_nil (n : Node ρ) : ¬ n.TwiceRefused [] := by
  rintro ⟨position, s, rest, h, -⟩
  simp at h

/-- Along a branch that is there, what is below it decides. -/
theorem Sound.twiceRefused_cons_iff {n c : Node ρ} {s : Segment} (hn : n.Sound)
    (hf : n.below.find? (Edge.madeFrom s) = some c) {rest : List Segment} :
    n.TwiceRefused (s :: rest) ↔ c.TwiceRefused rest := by
  constructor
  · rintro ⟨position, u, back, hsplit, ⟨t, ht, hclash⟩, hback⟩
    cases position with
    | nil =>
      obtain ⟨rfl, -⟩ := List.cons.inj hsplit
      have hs : s ∈ n.below.segments := Branches.mem_segments_of_find? hf
      exact absurd hclash (Segment.not_clashes_of_mem (hn.ordered []) hs ht)
    | cons p position =>
      obtain ⟨rfl, rfl⟩ := List.cons.inj hsplit
      rw [branchesAt_of_find? hf] at ht
      exact ⟨position, u, back, rfl, ⟨t, ht, hclash⟩, hback⟩
  · rintro ⟨position, u, back, rfl, ⟨t, ht, hclash⟩, hback⟩
    exact ⟨s :: position, u, back, rfl, ⟨t, by rwa [branchesAt_of_find? hf], hclash⟩, hback⟩

/-- Where there is no branch, the first segment clashes and another one cannot be read. -/
theorem twiceRefused_cons_iff_of_not_mem {n : Node ρ} {s : Segment}
    (hm : s ∉ n.below.segments) {rest : List Segment} :
    n.TwiceRefused (s :: rest) ↔
      (∃ t ∈ n.below.segments, s.Clashes t) ∧ ∃ u ∈ rest, ¬ u.Readable := by
  constructor
  · rintro ⟨position, u, back, hsplit, ⟨t, ht, hclash⟩, hback⟩
    cases position with
    | nil =>
      obtain ⟨rfl, rfl⟩ := List.cons.inj hsplit
      exact ⟨⟨t, ht, hclash⟩, hback⟩
    | cons p position =>
      obtain ⟨rfl, -⟩ := List.cons.inj hsplit
      have hf := Branches.find?_madeFrom_eq_none_iff.2 hm
      simp [branchesAt_cons, hf] at ht
  · rintro ⟨hclash, hrest⟩
    exact ⟨[], s, rest, rfl, hclash, hrest⟩

/-! ## What is told -/

/-- A rehearsal looks for a clash first, and then reads what is behind. -/
theorem rehearse_error_iff_of_not_mem {n : Node ρ} {s : Segment} {edge : Edge}
    (hm : s ∉ n.below.segments) (hs : Edge.ofSegment s = .ok edge) {rest : List Segment}
    {e : TreeError} :
    n.rehearse (s :: rest) = .error e ↔
      n.below.refuseConflict edge = .error e ∨
        n.below.refuseConflict edge = .ok () ∧ readable rest = .error e := by
  have hf := Branches.find?_madeFrom_eq_none_iff.2 hm
  simp only [rehearse, hf, hs, bind, Except.bind]
  cases hc : n.below.refuseConflict edge with
  | error e' => simp
  | ok _ => cases hb : readable rest <;> simp [pure, Except.pure]

/-- **With one reason at most, growing tells the same.** -/
theorem Sound.rehearse_error_iff {segments : List Segment} {n : Node ρ} (hn : n.Sound)
    (h : ¬ n.TwiceRefused segments) {e : TreeError} :
    n.rehearse segments = .error e ↔ n.grow segments = .error e := by
  induction segments generalizing n with
  | nil => simp [rehearse, grow]
  | cons s rest ih =>
    cases hf : n.below.find? (Edge.madeFrom s) with
    | some c =>
      rw [grow_error_iff_of_find? hf, ← ih (hn.child hf) (mt (hn.twiceRefused_cons_iff hf).2 h)]
      simp [rehearse, hf]
    | none =>
      have hm : s ∉ n.below.segments := Branches.find?_madeFrom_eq_none_iff.1 hf
      rw [twiceRefused_cons_iff_of_not_mem hm] at h
      cases hs : Edge.ofSegment s with
      | error e' => simp [rehearse, grow, hf, hs, bind, Except.bind]
      | ok edge =>
        rw [rehearse_error_iff_of_not_mem hm hs, grow_error_iff_of_not_mem hm hs]
        cases hc : n.below.refuseConflict edge with
        | ok _ => simp
        | error clash =>
          obtain ⟨t, ht, htold⟩ := Branches.tellsClash_of_refuseConflict hc
          rw [Edge.segment_ofSegment hs] at htold
          have hclash : s.Clashes t := htold.clashes fun hst => hm (hst ▸ ht)
          -- The clash is a reason, so what is behind can be read.
          have hrest : readable rest = .ok () := by
            rw [readable_eq_ok_iff]
            intro u hu
            by_contra hunread
            exact h ⟨⟨t, ht, hclash⟩, u, hu, hunread⟩
          simp [hrest]

/-- The segments are refused for a clash, and for the first of those behind that cannot be read. -/
def TwoReasons (n : Node ρ) (segments : List Segment) (clash unread : TreeError) : Prop :=
  ∃ position s front u back, segments = position ++ s :: (front ++ u :: back) ∧
    (∃ t ∈ n.branchesAt position, clash.TellsClash s t) ∧
      (∀ v ∈ front, v.Readable) ∧ Edge.ofSegment u = .error unread

theorem TwoReasons.cons {n c : Node ρ} {s : Segment}
    (hf : n.below.find? (Edge.madeFrom s) = some c) {rest : List Segment}
    {clash unread : TreeError} (h : c.TwoReasons rest clash unread) :
    n.TwoReasons (s :: rest) clash unread := by
  obtain ⟨position, t, front, u, back, rfl, hclash, hunread⟩ := h
  exact ⟨s :: position, t, front, u, back, rfl, by rwa [branchesAt_of_find? hf], hunread⟩

theorem TwoReasons.ne {n : Node ρ} {segments : List Segment} {clash unread : TreeError}
    (h : n.TwoReasons segments clash unread) : clash ≠ unread := by
  obtain ⟨position, s, front, u, back, -, ⟨t, -, htold⟩, -, hu⟩ := h
  obtain ⟨name, raw, rfl⟩ := Edge.regexInvalid_of_ofSegment hu
  rintro rfl
  exact htold

/-- **With two reasons a rehearsal tells of the clash, and growing of what cannot be read.** -/
theorem Sound.errors_of_twiceRefused {segments : List Segment} {n : Node ρ} (hn : n.Sound)
    (h : n.TwiceRefused segments) : ∃ clash unread, n.TwoReasons segments clash unread ∧
      n.rehearse segments = .error clash ∧ n.grow segments = .error unread := by
  induction segments generalizing n with
  | nil => exact absurd h (not_twiceRefused_nil n)
  | cons s rest ih =>
    cases hf : n.below.find? (Edge.madeFrom s) with
    | some c =>
      obtain ⟨clash, unread, hreasons, hrehearse, hgrow⟩ :=
        ih (hn.child hf) ((hn.twiceRefused_cons_iff hf).1 h)
      refine ⟨clash, unread, hreasons.cons hf, ?_, (grow_error_iff_of_find? hf).2 hgrow⟩
      simpa [rehearse, hf] using hrehearse
    | none =>
      have hm : s ∉ n.below.segments := Branches.find?_madeFrom_eq_none_iff.1 hf
      obtain ⟨⟨t, ht, hclash⟩, hbehind⟩ := (twiceRefused_cons_iff_of_not_mem hm).1 h
      obtain ⟨edge, hs⟩ : s.Readable := hclash.readable (Branches.readable_of_mem ht)
      obtain rfl := Edge.segment_ofSegment hs
      obtain ⟨clash, hc, htold⟩ := Branches.exists_clash hm ht hclash
      obtain ⟨unread, hrest⟩ := exists_unread hbehind
      obtain ⟨front, u, back, rfl, hfront, hu⟩ := readable_eq_error_iff.1 hrest
      exact ⟨clash, unread, ⟨[], _, front, u, back, rfl, htold, hfront, hu⟩,
        (rehearse_error_iff_of_not_mem hm hs).2 (Or.inl hc),
        (grow_error_iff_of_not_mem hm hs).2 (Or.inl hrest)⟩

/-! ## Rehearsing beside growing -/

/-- What is told by a rehearsal, beside what has grown. -/
structure Rehearses (n : Node ρ) (segments : List Segment)
    (told : Except TreeError (Option (Node ρ))) (grown : Except TreeError (Node ρ)) : Prop where
  refused : (∃ e, told = .error e) ↔ ∃ e, grown = .error e
  /-- The node is there already, and nothing grows. -/
  found : ∀ c, told = .ok (some c) ↔ grown = .ok n ∧ n.locate? segments = some c
  missing : told = .ok none ↔
    ∃ n', grown = .ok n' ∧ n.locate? segments = none ∧ (n'.locate? segments).isSome
  /-- The errors are the same, unless there are two reasons. -/
  same : (∀ e, told = .error e ↔ grown = .error e) ↔ ¬ n.TwiceRefused segments
  apart : n.TwiceRefused segments → ∃ clash unread,
    n.TwoReasons segments clash unread ∧ told = .error clash ∧ grown = .error unread

theorem Sound.rehearses_grow {n : Node ρ} (hn : n.Sound) (segments : List Segment) :
    n.Rehearses segments (n.rehearse segments) (n.grow segments) where
  refused := by
    by_cases h : n.TwiceRefused segments
    · obtain ⟨clash, unread, -, hrehearse, hgrow⟩ := hn.errors_of_twiceRefused h
      constructor
      · intro _
        exact ⟨unread, hgrow⟩
      · intro _
        exact ⟨clash, hrehearse⟩
    · apply exists_congr
      intro e
      exact hn.rehearse_error_iff h
  found c := by
    rw [hn.rehearse_eq_ok_iff, ← hn.grow_isOk_iff]
    constructor
    · rintro ⟨-, hc⟩
      exact ⟨grow_of_locate? (by rw [← hc]; rfl), hc.symm⟩
    · rintro ⟨hgrow, hc⟩
      exact ⟨⟨n, hgrow⟩, hc.symm⟩
  missing := by
    rw [hn.rehearse_eq_ok_iff, ← hn.grow_isOk_iff]
    constructor
    · rintro ⟨⟨n', hgrow⟩, hnone⟩
      have hlabel := locate?_grow hn.counted hgrow
      rw [labelAt?, Option.isSome_map] at hlabel
      exact ⟨n', hgrow, hnone.symm, hlabel⟩
    · rintro ⟨n', hgrow, hnone, -⟩
      exact ⟨⟨n', hgrow⟩, hnone.symm⟩
  same := by
    constructor
    · intro hsame h
      obtain ⟨clash, unread, hreasons, hrehearse, hgrow⟩ := hn.errors_of_twiceRefused h
      have hother := (hsame clash).1 hrehearse
      rw [hgrow] at hother
      exact hreasons.ne (Except.error.inj hother).symm
    · intro h e
      exact hn.rehearse_error_iff h
  apart := hn.errors_of_twiceRefused

end Node

namespace Router

/-- **A rehearsal tells whether a tree would grow, from any of its nodes and whatever has been
read.** It finds what is there, and tells the same error, unless there are two reasons for one. What
`growIn` answers is what `grow` does, whatever was read before, and by `Node.extend_cases` that is
what extending the tree in place comes to. -/
theorem Reachable.rehearses {r : Router} (h : r.Reachable) {m : Method} {n : Tree}
    (hn : n ∈ (r.forest.root m).nodes) (segments : List Segment) (cache cache' : Cache) :
    n.Rehearses segments (Reading.answer (n.rehearseIn segments) cache)
      (Reading.answer (n.growIn segments) cache') := by
  have hroot := h.sound.root m
  obtain ⟨position, hposition⟩ := hroot.mem_nodes_iff.1 hn
  have hsound : n.Sound := hroot.locate? hposition
  rw [n.answers_rehearseIn segments cache, n.answers_growIn segments cache']
  exact hsound.rehearses_grow segments

end Router

end

namespace Router

open Regex.Standard

/-- In the sample `/{y:a}` clashes with nothing, and `/{y}` with `/{x}/b`. That the expression `a`
has been read makes no difference. -/
theorem rehearses_sample :
    let root := sample.forest.root .get
    let free := [.regex ['y'] ['a']]
    let clashing := [.wildcard ['y']]
    let kept := ((Cache.read ['y'] ['a']).run {}).2
    sample.Reachable ∧ root ∈ root.nodes ∧ kept.constraints.map Constraint.raw = [['a']] ∧
      Reading.answer (root.rehearseIn free) {} = .ok none ∧
      root.Rehearses free (Reading.answer (root.rehearseIn free) {})
        (Reading.answer (root.growIn free) kept) ∧
      Reading.answer (root.rehearseIn clashing) kept =
        .error (.duplicateWildcard ['x'] ['y']) ∧
      root.Rehearses clashing (Reading.answer (root.rehearseIn clashing) kept)
        (Reading.answer (root.growIn clashing) {}) := by
  intro root free clashing kept
  have hroot : root ∈ root.nodes := List.mem_cons_self
  exact ⟨reachable_sample, hroot, rfl, rfl, reachable_sample.rehearses hroot free {} kept, rfl,
    reachable_sample.rehearses hroot clashing kept {}⟩

/-- A rehearsal need not tell what growing does: `/{y}/{z:[}` clashes with `/{x}/b`, and `[` cannot
be read. So `mount` and `handle` refuse the same segments with two errors. -/
theorem exists_rehearse_ne_grow :
    let pattern := ['/', '{', 'y', '}', '/', '{', 'z', ':', '[', '}']
    let segments := [.wildcard ['y'], .regex ['z'] ['[']]
    let root := sample.forest.root .get
    let clash := .duplicateWildcard ['x'] ['y']
    let unread := .regexInvalid ['z'] ['[']
    sample.Reachable ∧ root ∈ root.nodes ∧ Pattern.split pattern = .ok segments ∧
      Reading.answer (root.rehearseIn segments) {} = .error clash ∧
      Reading.answer (root.growIn segments) {} = .error unread ∧
      (sample.mount pattern sample).answer = .error (.tree clash) ∧
      (sample.handle .get pattern silent).answer = .error (.tree unread) :=
  ⟨reachable_sample, List.mem_cons_self, rfl, rfl, rfl, rfl, rfl⟩

end Router

end Routing
