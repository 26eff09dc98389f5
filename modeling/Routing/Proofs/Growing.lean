import Routing.Proofs.Soundness

/-!
# Growing sound trees

When a tree can have a position for some segments, and what a route placed there changes.

* `Node.Admits` — segments that can be read and clash with no branch on their way.
* `Node.Sound.grow_isOk_iff`, `Node.Sound.rehearse_eq_ok_iff` — a sound tree grows along what it
  admits, and rehearsing tells.
* `Node.branchesAt_grow`, `Node.routeAt_place` — the branches and the routes afterwards.
* `Node.Sound.place` — a sound tree stays sound when a route is placed.
-/

namespace Routing

open Segment (Before)

variable [Regex.Engine]

theorem Segment.not_readable {s : Segment} {e : TreeError} (h : Edge.ofSegment s = .error e) :
    ¬ s.Readable := by
  rintro ⟨edge, h'⟩
  rw [h] at h'
  cases h'

theorem readable_eq_ok_iff {segments : List Segment} :
    readable segments = .ok () ↔ ∀ s ∈ segments, s.Readable := by
  induction segments with
  | nil => simp [readable]
  | cons s rest ih =>
    rw [List.forall_mem_cons, ← ih, readable, bind_eq_ok_iff, exists_and_right]
    rfl

/-- The first segment that cannot be read is the one that is told. -/
theorem readable_eq_error_iff {segments : List Segment} {e : TreeError} :
    readable segments = .error e ↔ ∃ front u back, segments = front ++ u :: back ∧
      (∀ s ∈ front, s.Readable) ∧ Edge.ofSegment u = .error e := by
  induction segments with
  | nil => simp [readable]
  | cons s rest ih =>
    simp only [List.cons_eq_append_iff]
    cases hs : Edge.ofSegment s with
    | error e' =>
      simp only [readable, hs, bind, Except.bind, Except.error.injEq]
      constructor
      · rintro rfl
        exact ⟨[], s, rest, Or.inl ⟨rfl, rfl⟩, by simp, hs⟩
      · rintro ⟨front, u, back, ⟨rfl, hsplit⟩ | ⟨tail, rfl, -⟩, hfront, hu⟩
        · obtain ⟨rfl, -⟩ := List.cons.inj hsplit
          exact Except.error.inj (hs.symm.trans hu)
        · exact absurd (hfront s List.mem_cons_self) (Segment.not_readable hs)
    | ok edge =>
      simp only [readable, hs, bind, Except.bind, ih]
      constructor
      · rintro ⟨front, u, back, rfl, hfront, hu⟩
        exact ⟨s :: front, u, back, Or.inr ⟨front, rfl, rfl⟩,
          List.forall_mem_cons.2 ⟨⟨edge, hs⟩, hfront⟩, hu⟩
      · rintro ⟨front, u, back, ⟨rfl, hsplit⟩ | ⟨tail, rfl, rfl⟩, hfront, hu⟩
        · obtain ⟨rfl, -⟩ := List.cons.inj hsplit
          rw [hs] at hu
          cases hu
        · exact ⟨tail, u, back, rfl, (List.forall_mem_cons.1 hfront).2, hu⟩

/-- A shoot reads its segments in their order, and does nothing else that may fail. -/
theorem Branches.shoot_eq_error_iff {ρ : Type} {slots : Nat} {segments : List Segment}
    {e : TreeError} :
    Branches.shoot (ρ := ρ) slots segments = .error e ↔ readable segments = .error e := by
  induction segments generalizing slots with
  | nil => simp [shoot, readable]
  | cons s rest ih =>
    simp [shoot, readable, bind_eq_error_iff, ih, pure, Except.pure]

theorem Branches.exists_shoot_iff {ρ : Type} {slots : Nat} {segments : List Segment} :
    (∃ b : Branches ρ, Branches.shoot slots segments = .ok b) ↔ ∀ s ∈ segments, s.Readable := by
  rw [← readable_eq_ok_iff]
  cases hb : shoot (ρ := ρ) slots segments with
  | error e => simp [shoot_eq_error_iff.1 hb]
  | ok b =>
    cases hr : readable segments with
    | error e =>
      have herror : shoot (ρ := ρ) slots segments = .error e := shoot_eq_error_iff.2 hr
      rw [hb] at herror
      cases herror
    | ok _ => simp

/-- What a branch was made from could be read. -/
theorem Branches.readable_of_mem {ρ : Type} {b : Branches ρ} {s : Segment} (h : s ∈ b.segments) :
    s.Readable := by
  obtain ⟨e, _, rfl⟩ := exists_edge h
  exact ⟨e, e.ofSegment_segment⟩

namespace Node

variable {ρ : Type}

/-! ## Which segments a tree admits -/

/-- The segments can be read, and on their way they clash with no branch. -/
structure Admits (n : Node ρ) (segments : List Segment) : Prop where
  readable : ∀ s ∈ segments, s.Readable
  free : ∀ position s, next? position segments = some s →
    ∀ t ∈ n.branchesAt position, ¬ s.Clashes t

/-- Along a branch that is there, what is below it decides. -/
theorem Sound.admits_cons_iff {n c : Node ρ} {s : Segment} (hn : n.Sound)
    (hf : n.below.find? (Edge.madeFrom s) = some c) (rest : List Segment) :
    n.Admits (s :: rest) ↔ c.Admits rest := by
  have hs : s ∈ n.below.segments := Branches.mem_segments_of_find? hf
  constructor
  · intro h
    refine ⟨fun t ht => h.readable t (by simp [ht]), fun position t ht u hu => ?_⟩
    exact h.free (s :: position) t (by simpa using ht) u (by rwa [branchesAt_of_find? hf])
  · intro h
    refine ⟨fun t ht => ?_, fun position t ht u hu => ?_⟩
    · rcases List.mem_cons.1 ht with rfl | ht
      · exact Branches.readable_of_mem hs
      · exact h.readable t ht
    · cases position with
      | nil =>
        obtain rfl : s = t := by simpa using ht
        exact Segment.not_clashes_of_mem (hn.ordered []) hs hu
      | cons p position =>
        by_cases hp : p = s
        · subst hp
          exact h.free position t (by simpa using ht) u (by rwa [branchesAt_of_find? hf] at hu)
        · simp [hp] at ht

/-- Where there is no branch, one is added if its segment clashes with none of the others. -/
theorem admits_cons_iff_of_not_mem {n : Node ρ} {s : Segment} (hm : s ∉ n.below.segments)
    (rest : List Segment) :
    n.Admits (s :: rest) ↔ s.Readable ∧ (∀ t ∈ rest, t.Readable) ∧
      ∀ t ∈ n.below.segments, ¬ s.Clashes t := by
  have hf := Branches.find?_madeFrom_eq_none_iff.2 hm
  constructor
  · intro h
    exact ⟨h.readable s (by simp), fun t ht => h.readable t (by simp [ht]), h.free [] s rfl⟩
  · rintro ⟨hs, hrest, hfree⟩
    refine ⟨fun t ht => ?_, fun position t ht u hu => ?_⟩
    · rcases List.mem_cons.1 ht with rfl | ht
      · exact hs
      · exact hrest t ht
    · cases position with
      | nil =>
        obtain rfl : s = t := by simpa using ht
        exact hfree u hu
      | cons p position =>
        by_cases hp : p = s
        · subst hp
          simp [branchesAt_cons, hf] at hu
        · simp [hp] at ht

/-- **A sound tree grows along the segments it admits, and along no others.** -/
theorem Sound.grow_isOk_iff {segments : List Segment} {n : Node ρ} (hn : n.Sound) :
    (∃ n', n.grow segments = .ok n') ↔ n.Admits segments := by
  induction segments generalizing n with
  | nil => exact ⟨fun _ => ⟨by simp, by simp⟩, fun _ => ⟨n, rfl⟩⟩
  | cons s rest ih =>
    cases hf : n.below.find? (Edge.madeFrom s) with
    | some child =>
      rw [hn.admits_cons_iff hf, ← ih (hn.child hf)]
      cases hg : child.grow rest <;>
        simp [grow, hf, hg, bind, Except.bind, pure, Except.pure]
    | none =>
      have hm : s ∉ n.below.segments := Branches.find?_madeFrom_eq_none_iff.1 hf
      rw [admits_cons_iff_of_not_mem hm]
      cases he : Edge.ofSegment s with
      | error e =>
        have hs : ¬ s.Readable := Segment.not_readable he
        simp [grow, hf, he, hs, bind, Except.bind]
      | ok edge =>
        have hs := Edge.segment_ofSegment he
        have hm' : edge.segment ∉ n.below.segments := by rwa [hs]
        have hr := Branches.refuseConflict_eq_ok_iff hm'
        rw [hs] at hr
        have hb : (∃ b : Branches ρ, Branches.shoot (n.slots + edge.width) rest = .ok b) ↔
            ∀ t ∈ rest, t.Readable := Branches.exists_shoot_iff
        rw [← hr, ← hb]
        cases hb : Branches.shoot (ρ := ρ) (n.slots + edge.width) rest <;>
          cases hc : n.below.refuseConflict edge <;>
          simp [grow, hf, he, hb, hc, show s.Readable from ⟨edge, he⟩, bind, Except.bind, pure,
            Except.pure]

theorem grow_error_iff_of_find? {n c : Node ρ} {s : Segment}
    (hf : n.below.find? (Edge.madeFrom s) = some c) {rest : List Segment} {e : TreeError} :
    n.grow (s :: rest) = .error e ↔ c.grow rest = .error e := by
  simp [grow, hf, bind_eq_error_iff, pure, Except.pure]

/-- What is behind a new branch is read first; then the branch is seated. -/
theorem grow_error_iff_of_not_mem {n : Node ρ} {s : Segment} {edge : Edge}
    (hm : s ∉ n.below.segments) (hs : Edge.ofSegment s = .ok edge) {rest : List Segment}
    {e : TreeError} :
    n.grow (s :: rest) = .error e ↔
      readable rest = .error e ∨
        readable rest = .ok () ∧ n.below.refuseConflict edge = .error e := by
  have hf := Branches.find?_madeFrom_eq_none_iff.2 hm
  simp only [grow, hf, hs, bind, Except.bind]
  cases hb : Branches.shoot (ρ := ρ) (n.slots + edge.width) rest with
  | error e' => simp [Branches.shoot_eq_error_iff.1 hb]
  | ok below =>
    have hrest : readable rest = .ok () := by
      rw [readable_eq_ok_iff]
      exact Branches.exists_shoot_iff.1 ⟨below, hb⟩
    cases hc : n.below.refuseConflict edge <;> simp [hrest, pure, Except.pure]

/-- Rehearsing finds the node of the segments, if there is one, and refuses what would not
grow. -/
theorem Sound.rehearse_eq_ok_iff {segments : List Segment} {n : Node ρ} (hn : n.Sound)
    {found : Option (Node ρ)} :
    n.rehearse segments = .ok found ↔ n.Admits segments ∧ found = n.locate? segments := by
  induction segments generalizing n with
  | nil =>
    have : n.Admits [] := ⟨by simp, by simp⟩
    simp [rehearse, this, eq_comm]
  | cons s rest ih =>
    cases hf : n.below.find? (Edge.madeFrom s) with
    | some child =>
      rw [hn.admits_cons_iff hf, locate?_cons, hf, Option.bind_some, ← ih (hn.child hf)]
      simp [rehearse, hf]
    | none =>
      have hm : s ∉ n.below.segments := Branches.find?_madeFrom_eq_none_iff.1 hf
      rw [admits_cons_iff_of_not_mem hm, locate?_cons, hf]
      cases he : Edge.ofSegment s with
      | error e =>
        have hs : ¬ s.Readable := Segment.not_readable he
        simp [rehearse, hf, he, hs, bind, Except.bind]
      | ok edge =>
        have hs := Edge.segment_ofSegment he
        have hm' : edge.segment ∉ n.below.segments := by rwa [hs]
        have hr := Branches.refuseConflict_eq_ok_iff hm'
        rw [hs] at hr
        rw [← hr, ← readable_eq_ok_iff]
        cases hc : n.below.refuseConflict edge <;> cases hb : readable rest <;>
          simp [rehearse, hf, he, hb, hc, show s.Readable from ⟨edge, he⟩, bind, Except.bind, pure,
            Except.pure, eq_comm]

/-- Growing to a node that is there changes nothing. -/
theorem grow_of_locate? {segments : List Segment} {n : Node ρ}
    (h : (n.locate? segments).isSome) : n.grow segments = .ok n := by
  induction segments generalizing n with
  | nil => rfl
  | cons s rest ih =>
    rw [locate?_cons] at h
    cases hf : n.below.find? (Edge.madeFrom s) with
    | none => simp [hf] at h
    | some child =>
      have hg := ih (n := child) (by simpa [hf] using h)
      simp [grow, hf, hg, bind, Except.bind, pure, Except.pure, Branches.modify_of_find? hf]

/-! ## What a placed route changes -/

theorem branchesAt_grow {segments : List Segment} {n n' : Node ρ} (hn : n.Counted)
    (h : n.grow segments = .ok n') (position : List Segment) :
    n'.branchesAt position =
      seatAll Before (n.branchesAt position) (next? position segments).toList := by
  unfold branchesAt
  rw [labelAt?_grow hn h]
  cases n.labelAt? position with
  | some l => rfl
  | none =>
    by_cases hp : position <+: segments
    · cases next? position segments <;> simp [hp, seat]
    · have hnext : next? position segments = none := by
        by_contra hs
        obtain ⟨s, hs⟩ := Option.ne_none_iff_exists'.1 hs
        exact hp ((List.prefix_append position [s]).trans (next?_eq_some_iff.1 hs))
      simp [hp, hnext]

theorem routeAt_grow {segments : List Segment} {n n' : Node ρ} (hn : n.Counted)
    (h : n.grow segments = .ok n') (position : List Segment) :
    n'.routeAt position = n.routeAt position := by
  unfold routeAt
  rw [labelAt?_grow hn h]
  cases n.labelAt? position with
  | some l => rfl
  | none => by_cases hp : position <+: segments <;> simp [hp]

theorem slots_grow {segments : List Segment} {n n' : Node ρ} (h : n.grow segments = .ok n')
    (hn : n.Counted) : n'.slots = n.slots := by
  have := labelAt?_grow hn h []
  simp only [labelAt?_nil, Option.some.injEq] at this
  exact congrArg Label.slots this

theorem counted_grow {segments : List Segment} {n n' : Node ρ} (hn : n.Counted)
    (h : n.grow segments = .ok n') : n'.Counted := by
  intro position l hl
  rw [slots_grow h hn]
  rw [labelAt?_grow hn h] at hl
  cases hold : n.labelAt? position with
  | some old =>
    simp only [hold, Option.some.injEq] at hl
    subst hl
    exact hn position old hold
  | none =>
    simp only [hold, Option.ite_none_right_eq_some, Option.some.injEq] at hl
    obtain ⟨-, rfl⟩ := hl
    rfl

theorem counted_put {n : Node ρ} (hn : n.Counted) (segments : List Segment) (r : ρ) :
    (n.put segments r).Counted := by
  intro position l hl
  have hroot : (n.put segments r).slots = n.slots := by
    cases segments <;> rfl
  rw [labelAt?_put, Option.map_eq_some_iff] at hl
  obtain ⟨old, hold, rfl⟩ := hl
  rw [hroot]
  by_cases hp : position = segments
  · simpa [hp] using hn position old hold
  · simpa [hp] using hn position old hold

/-- A grown tree has a node where it was to have one. -/
theorem locate?_grow {segments : List Segment} {n n' : Node ρ} (hn : n.Counted)
    (h : n.grow segments = .ok n') : (n'.labelAt? segments).isSome := by
  rw [labelAt?_grow hn h]
  cases n.labelAt? segments <;> simp

theorem routeAt_place {segments : List Segment} {n n' : Node ρ} (hn : n.Counted)
    (h : n.grow segments = .ok n') (r : ρ) (position : List Segment) :
    (n'.put segments r).routeAt position =
      if position = segments then some r else n.routeAt position := by
  by_cases hp : position = segments
  · subst hp
    obtain ⟨l, hl⟩ := Option.isSome_iff_exists.1 (locate?_grow hn h)
    simp [routeAt, labelAt?_put, hl]
  · rw [if_neg hp, ← routeAt_grow hn h position]
    simp [routeAt, labelAt?_put, hp]

/-- **Placing a route keeps a tree sound.** The route is at the end of the branch that may have
been added for it. -/
theorem Sound.place {segments : List Segment} {n n' : Node ρ} (hn : n.Sound)
    (hs : ∀ s ∈ segments, s.Proper) (ha : n.Admits segments) (h : n.grow segments = .ok n')
    (r : ρ) : (n'.put segments r).Sound where
  counted := counted_put (counted_grow hn.counted h) segments r
  ordered position := by
    rw [branchesAt_put, branchesAt_grow hn.counted h]
    cases hnext : next? position segments with
    | none => exact hn.ordered position
    | some s => exact Segment.pairwise_leads_seat (hn.ordered position) (ha.free position s hnext)
  proper position s hm := by
    rw [branchesAt_put, branchesAt_grow hn.counted h, mem_seatAll] at hm
    rcases hm with hm | hm
    · exact hn.proper position s hm
    · rw [Option.mem_toList, next?_eq_some_iff] at hm
      exact hs s (hm.subset (by simp))
  bearing position l hp hl hb := by
    rw [labelAt?_put, labelAt?_grow hn.counted h, Option.map_eq_some_iff] at hl
    obtain ⟨l', hl', rfl⟩ := hl
    by_cases hend : position = segments
    · simp [hend]
    · simp only [hend, ↓reduceIte] at hb ⊢
      cases hold : n.labelAt? position with
      | some old =>
        simp only [hold, Option.some.injEq] at hl'
        subst hl'
        refine hn.bearing position old hp hold (List.eq_nil_iff_forall_not_mem.2 fun s hm => ?_)
        have : s ∈ (old.grow (next? position segments)).branches := by
          simp [Label.grow, hm]
        rw [hb] at this
        cases this
      | none =>
        -- A new node without a branch is the last one.
        simp only [hold, Option.ite_none_right_eq_some, Option.some.injEq] at hl'
        obtain ⟨⟨rest, rfl⟩, rfl⟩ := hl'
        cases rest with
        | nil => exact absurd (List.append_nil position).symm hend
        | cons s rest =>
          have hnext : next? position (position ++ s :: rest) = some s :=
            next?_eq_some_iff.2 ⟨rest, by simp⟩
          simp [hnext] at hb

end Node

end Routing
