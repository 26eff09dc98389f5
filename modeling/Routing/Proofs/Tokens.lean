import Routing.Proofs.Reaching
import Routing.Proofs.Refusing
import Routing.Proofs.Rendering

/-!
# Token by token

A pattern is followed token by token: a literal leads along the same literal, or else along the
first wildcard that takes it. A path is walked along the first branch that takes some beginning of
what is ahead. The two come to the same node unless a literal cuts a token short.

* `Pattern.split_render_literals` — the pattern of some tokens.
* `Segment.Uncut`, `Node.Uncut` — no literal beside a token begins it.
* `Node.Sound.segments_walk?_tokens`, `Node.Walks.uncut` — the walk of tokens goes where they aim
  if and only if none is cut short.
* `Router.Reachable.contains_iff_find` — when a pattern of tokens is contained and its path found.
-/

namespace Routing

open Instance (joined)

/-- A token stands for itself. -/
def Instance.ofToken (token : Text) : Instance := ⟨.literal token, token⟩

/-! ## Patterns of literals -/

namespace Pattern

theorem render_literals (ts : List Text) :
    render (ts.map .literal) = Instance.path (ts.map Instance.ofToken) := by
  cases ts with
  | nil => rfl
  | cons t ts =>
    simp [render, Instance.path, joined, Instance.ofToken, Segment.display, List.flatMap_def,
      Function.comp_def]

/-- A pattern of literals splits into them. -/
theorem split_render_literals {ts : List Text} (h : ∀ t ∈ ts, (Segment.literal t).Proper) :
    split (render (ts.map .literal)) = .ok (ts.map .literal) := by
  refine split_render fun s hs => ?_
  obtain ⟨t, ht, rfl⟩ := List.mem_map.1 hs
  exact split_literal (h t ht)

end Pattern

section

variable [Regex.Engine]

/-! ## Tokens that no literal cuts short -/

/-- Among these branches there is one for the token, or no literal begins it. -/
def Segment.Uncut (branches : List Segment) (token : Text) : Prop :=
  .literal token ∈ branches ∨ ∀ id, .literal id ∈ branches → ¬ id <+: token

/-- So it is with every token, at the node that those before it lead to. -/
def Node.Uncut {ρ : Type} (n : Node ρ) (ts : List Text) : Prop :=
  ∀ above t after, ts = above ++ t :: after → ∀ c, n.reach? (above.map .literal) = some c →
    Segment.Uncut c.below.segments t

/-- Where no literal begins a token, the branches that take it are those that take its text. -/
theorem Edge.takes_literal_iff {edge : Edge} {token : Text}
    (h : ∀ id, edge.segment = .literal id → ¬ id <+: token) :
    Edge.takes (.literal token) edge = true ↔ edge.segment.Takes token := by
  cases edge with
  | literal id =>
    have hnot : ¬ id <+: token := h id rfl
    have hne : id ≠ token := by
      rintro rfl
      exact hnot (List.prefix_refl id)
    simp [takes, segment, Segment.Takes, hnot, hne]
  | regex name c => simp [takes, segment, Segment.Takes, Constraint.admits_raw]
  | wildcard name => simp [takes, segment, Segment.Takes]

/-- A token is a text that stands for the segment of a branch that takes it. -/
theorem Edge.plain_of_takes {edge : Edge} {token : Text} (hne : token ≠ []) (hslash : '/' ∉ token)
    (h : Edge.takes (.literal token) edge = true) :
    (⟨edge.segment, token⟩ : Instance).Plain := by
  cases edge with
  | literal id =>
    have heq : id = token := by simpa [takes] using h
    exact heq.symm
  | regex name c => exact ⟨hne, hslash⟩
  | wildcard name => exact ⟨hne, hslash⟩

/-- A literal that takes a token is the token. -/
theorem Edge.segment_of_takes_literal {edge : Edge} {token : Text}
    (h : Edge.takes (.literal token) edge = true) (hw : ¬ edge.segment.isWildcard = true) :
    edge.segment = .literal token := by
  cases edge with
  | literal id =>
    have heq : id = token := by simpa [takes] using h
    rw [segment, heq]
  | regex name c => exact absurd rfl hw
  | wildcard name => exact absurd rfl hw

/-- Where there is a branch made from a segment, it is the first that takes it. -/
theorem Branches.segment_of_find?_takes {ρ : Type} {b : Branches ρ}
    (hb : b.segments.Pairwise Segment.Leads) {s : Segment} (hs : s ∈ b.segments)
    {c : Edge × Node ρ} (h : b.children.find? (Edge.takes s ·.1) = some c) : c.1.segment = s := by
  obtain ⟨htakes, before, after, hsplit, hbefore⟩ := List.find?_eq_some_iff_append.1 h
  rw [b.segments_eq_children, hsplit, List.map_append, List.map_cons] at hb hs
  rcases List.mem_append.1 hs with hs | hs
  · obtain ⟨c', hc', rfl⟩ := List.mem_map.1 hs
    have hnot := hbefore c' hc'
    simp [Edge.takes_segment] at hnot
  · rcases List.mem_cons.1 hs with rfl | hs
    · rfl
    · have hleads : c.1.segment.Leads s :=
        (List.pairwise_cons.1 (List.pairwise_append.1 hb).2.1).1 s hs
      rw [Edge.takes_of_leads hleads] at htakes
      cases htakes

namespace Node

variable {ρ : Type}

theorem uncut_cons_iff {n : Node ρ} {t : Text} {ts : List Text} :
    n.Uncut (t :: ts) ↔ Segment.Uncut n.below.segments t ∧
      ∀ c, n.below.children.find? (Edge.takes (.literal t) ·.1) = some c → c.2.Uncut ts := by
  constructor
  · intro h
    refine ⟨h [] t ts rfl n rfl, fun c hc above u after hts last hlast => ?_⟩
    refine h (t :: above) u after (by rw [hts, List.cons_append]) last ?_
    rw [List.map_cons, reach?_cons, Branches.find?_eq_children, hc, Option.map_some,
      Option.bind_some, hlast]
  · rintro ⟨hhead, htail⟩ above u after hts last hlast
    cases above with
    | nil =>
      obtain ⟨rfl, rfl⟩ := List.cons.inj hts
      cases hlast
      exact hhead
    | cons v above =>
      obtain ⟨rfl, hafter⟩ := List.cons.inj hts
      rw [List.map_cons, reach?_cons, Branches.find?_eq_children] at hlast
      obtain ⟨child, hchild, hlast⟩ := Option.bind_eq_some_iff.1 hlast
      obtain ⟨c, hc, rfl⟩ := Option.map_eq_some_iff.1 hchild
      exact htail c hc above u after hafter last hlast

/-- Where no literal begins a token, a branch goes on from it if and only if it takes it. -/
theorem Sound.isSome_advance?_token {n : Node ρ} (hn : n.Sound) {t rest : Text} (hne : t ≠ [])
    (hslash : '/' ∉ t) (hrest : Boundary rest)
    (hnone : ∀ id, .literal id ∈ n.below.segments → ¬ id <+: t) {c : Edge × Node ρ}
    (hc : c ∈ n.below.children) :
    (c.1.advance? (t ++ rest)).isSome ↔ Edge.takes (.literal t) c.1 = true := by
  have hmem : c.1.segment ∈ n.below.segments := Branches.segment_mem_segments hc
  rw [Edge.advance?_isSome_iff (hn.proper [] _ hmem) hne hslash hrest, Edge.takes_literal_iff]
  intro id hid
  exact hnone id (hid ▸ hmem)

/-- **The branch that is followed when a token is ahead is the one that takes the token.** -/
theorem Sound.follows_token {n : Node ρ} (hn : n.Sound) {t rest : Text} (hne : t ≠ [])
    (hslash : '/' ∉ t) (hrest : Boundary rest) (huncut : Segment.Uncut n.below.segments t)
    {c : Edge × Node ρ} (h : n.below.children.find? (Edge.takes (.literal t) ·.1) = some c) :
    ∃ a, n.below.Follows (t ++ rest) c.1 c.2 a ∧ a.rest = rest := by
  rcases huncut with hmem | hnone
  · have hfind : n.below.find? (Edge.madeFrom (.literal t)) = some c.2 := by
      rw [← Branches.find?_takes (hn.ordered []) hmem, Branches.find?_eq_children, h,
        Option.map_some]
    have hgranted : (Instance.ofToken t).Granted n.below.segments :=
      Instance.granted_of_literal rfl _
    obtain ⟨edge, hedge, hfollows⟩ :=
      hn.exists_follows (i := Instance.ofToken t) rfl hrest hfind hgranted
    obtain rfl : edge = c.1 := by
      apply Edge.segment_injective
      rw [hedge, Branches.segment_of_find?_takes (hn.ordered []) hmem h]
      rfl
    exact ⟨_, hfollows, rfl⟩
  · obtain ⟨edge, child⟩ := c
    obtain ⟨htakes, before, after, hsplit, hbefore⟩ := List.find?_eq_some_iff_append.1 h
    have hadvance {c : Edge × Node ρ} (hc : c ∈ n.below.children) :=
      hn.isSome_advance?_token hne hslash hrest hnone hc
    have hmem : (edge, child) ∈ n.below.children := by simp [hsplit]
    obtain ⟨a, ha⟩ := Option.isSome_iff_exists.1 ((hadvance hmem).2 htakes)
    have hproper : edge.segment.Proper := hn.proper [] _ (Branches.segment_mem_segments hmem)
    have hrest' : a.rest = rest := by
      have hplain := Edge.plain_of_takes hne hslash htakes
      rw [Edge.advance?_instance (i := ⟨edge.segment, t⟩) rfl hplain hproper hrest ha]
    refine ⟨a, ⟨before, after, hsplit, ha, fun c hc => ?_⟩, hrest'⟩
    rw [← Option.not_isSome_iff_eq_none, hadvance (by simp [hsplit, hc])]
    simpa using hbefore c hc

/-- Where no branch takes a token, none goes on from it. -/
theorem Sound.walk?_token_eq_none {n : Node ρ} (hn : n.Sound) {t rest : Text} (hne : t ≠ [])
    (hslash : '/' ∉ t) (hrest : Boundary rest) (huncut : Segment.Uncut n.below.segments t)
    (h : n.below.children.find? (Edge.takes (.literal t) ·.1) = none) :
    n.below.walk? (t ++ rest) = none := by
  have hnot := List.find?_eq_none.1 h
  rcases huncut with hmem | hnone
  · rw [n.below.segments_eq_children] at hmem
    obtain ⟨c, hc, hsegment⟩ := List.mem_map.1 hmem
    have htakes := c.1.takes_segment
    rw [hsegment] at htakes
    exact absurd htakes (hnot c hc)
  · apply Branches.walk?_eq_none
    intro c hc
    rw [← Option.not_isSome_iff_eq_none, hn.isSome_advance?_token hne hslash hrest hnone hc]
    exact hnot c hc

/-- **The walk of tokens that nothing cuts short goes where they aim.** -/
theorem Sound.segments_walk?_tokens {n : Node ρ} (hn : n.Sound) {ts : List Text}
    (hts : ∀ t ∈ ts, t ≠ [] ∧ '/' ∉ t) (huncut : n.Uncut ts) :
    (n.walk? (joined (ts.map Instance.ofToken))).map Arrival.segments =
      n.aim? (ts.map .literal) := by
  induction ts generalizing n with
  | nil => rfl
  | cons t ts ih =>
    obtain ⟨⟨hne, hslash⟩, hts⟩ := List.forall_mem_cons.1 hts
    obtain ⟨hhead, htail⟩ := uncut_cons_iff.1 huncut
    have hrest : Boundary (joined (ts.map Instance.ofToken)) := Instance.boundary_joined _
    have hgo : t ++ joined (ts.map Instance.ofToken) ≠ [] := by simp [hne]
    have hwalk : n.walk? (joined ((t :: ts).map Instance.ofToken)) =
        n.below.walk? (t ++ joined (ts.map Instance.ofToken)) := walk?_of_go hgo
    rw [hwalk, List.map_cons, aim?_cons]
    cases hfind : n.below.children.find? (Edge.takes (.literal t) ·.1) with
    | none => rw [hn.walk?_token_eq_none hne hslash hrest hhead hfind]; rfl
    | some c =>
      obtain ⟨a, hfollows, ha⟩ := hn.follows_token hne hslash hrest hhead hfind
      have hchild : c.2.Sound := hn.child (hn.find?_of_follows hfollows)
      rw [Branches.walk?_of_follows hfollows, ha, Option.bind_some, ← ih hchild hts (htail c hfind),
        Option.map_map, Option.map_map]
      rfl

/-- **A walk of tokens that goes where they aim was cut short nowhere.** -/
theorem Walks.uncut {n : Node ρ} (hn : n.Sound) {ts : List Text}
    (hts : ∀ t ∈ ts, t ≠ [] ∧ '/' ∉ t) {arrival : Arrival ρ}
    (h : n.Walks (joined (ts.map Instance.ofToken)) arrival)
    (haim : n.aim? (ts.map .literal) = some arrival.segments) : n.Uncut ts := by
  induction ts generalizing n arrival with
  | nil =>
    intro above u after hsplit
    simp at hsplit
  | cons t ts ih =>
    obtain ⟨⟨hne, hslash⟩, hts⟩ := List.forall_mem_cons.1 hts
    obtain ⟨c, hfind, hbelow⟩ := Option.bind_eq_some_iff.1 haim
    obtain ⟨position, hposition, hsegments⟩ := Option.map_eq_some_iff.1 hbelow
    have htakes : Edge.takes (.literal t) c.1 = true := by simpa using List.find?_some hfind
    have hplain := Edge.plain_of_takes hne hslash htakes
    cases h with
    | stop hstop => cases hsegments
    | @go _ child _ edge a last hgo hfollows hlast =>
      -- The walk and the tokens take the same branch, and the walk takes all of the token.
      obtain ⟨hedge, rfl⟩ := List.cons.inj hsegments
      obtain ⟨hgranted, ha⟩ := hn.granted_of_follows hplain
        (Instance.boundary_joined (ts.map Instance.ofToken)) hfollows hedge.symm
      have hchild := hn.find?_of_follows hfollows
      have hc := Branches.find?_of_child (hn.nodup []) (List.mem_of_find?_eq_some hfind)
      rw [← hedge, hc] at hchild
      obtain rfl : c.2 = child := Option.some.inj hchild
      refine uncut_cons_iff.2 ⟨?_, fun c' hc' => ?_⟩
      · by_cases hw : c.1.segment.isWildcard = true
        · exact Or.inr (hgranted.literals hw)
        · have hmem := Branches.segment_mem_segments (List.mem_of_find?_eq_some hfind)
          rw [Edge.segment_of_takes_literal htakes hw] at hmem
          exact Or.inl hmem
      · rw [hfind] at hc'
        obtain rfl := Option.some.inj hc'
        exact ih (hn.child hc) hts (ha ▸ hlast) hposition

/-- So it comes to the node that they reach. -/
theorem Sound.node_walk?_tokens {n : Node ρ} (hn : n.Sound) {ts : List Text}
    (hts : ∀ t ∈ ts, t ≠ [] ∧ '/' ∉ t) (huncut : n.Uncut ts) :
    (n.walk? (joined (ts.map Instance.ofToken))).map Arrival.node =
      n.reach? (ts.map .literal) := by
  rw [hn.reach?_eq_aim, ← hn.segments_walk?_tokens hts huncut]
  cases hwalk : n.walk? (joined (ts.map Instance.ofToken)) with
  | none => rfl
  | some arrival =>
    have hlocate := (walk?_eq_some_iff.1 hwalk).locate? hn
    rw [Option.map_some, Option.map_some, Option.bind_some, hlocate]

end Node

/-- A token says the same in a pattern and in a path. -/
def Text.IsToken (t : Text) : Prop := t ≠ [] ∧ '/' ∉ t ∧ '{' ∉ t ∧ '}' ∉ t ∧ '%' ∉ t

instance : DecidablePred Text.IsToken := fun t =>
  inferInstanceAs (Decidable (t ≠ [] ∧ '/' ∉ t ∧ '{' ∉ t ∧ '}' ∉ t ∧ '%' ∉ t))

omit [Regex.Engine] in
theorem Text.IsToken.proper {t : Text} (h : t.IsToken) : (Segment.literal t).Proper :=
  ⟨h.1, h.2.1, h.2.2.1, h.2.2.2.1⟩

omit [Regex.Engine] in
/-- Nothing in a path of tokens is escaped. -/
theorem Text.Percent.text_render {ts : List Text} (hts : ∀ t ∈ ts, t.IsToken) :
    text (Pattern.render (ts.map .literal)) = Instance.path (ts.map Instance.ofToken) := by
  have hplain : '%' ∉ Instance.path (ts.map Instance.ofToken) := by
    cases ts with
    | nil => decide
    | cons t ts =>
      intro hmem
      obtain ⟨i, hi, hmem⟩ := List.mem_flatMap.1 hmem
      obtain ⟨u, hu, rfl⟩ := List.mem_map.1 hi
      rcases List.mem_cons.1 hmem with hslash | hmem
      · cases hslash
      · exact (hts u hu).2.2.2.2 hmem
  rw [Pattern.render_literals, text_of_not_mem hplain]

namespace Router

/-- A pattern of tokens is contained when they reach a route. -/
theorem contains_tokens_iff {r : Router} {m : Method} {ts : List Text}
    (hts : ∀ t ∈ ts, t.IsToken) :
    r.contains m (Pattern.render (ts.map .literal)) = .ok true ↔
      ∃ c route, (r.forest.root m).reach? (ts.map .literal) = some c ∧ c.route = some route := by
  have hsplit := Pattern.split_render_literals fun t ht => (hts t ht).proper
  simp only [contains, hsplit, Forest.reach_eq, Except.ok.injEq, Option.isSome_iff_exists,
    Option.bind_eq_some_iff]
  exact exists_comm

/-- **When a pattern of tokens is contained and its path is found.** The pattern is contained if and
only if its path is found, as long as no literal cuts a token short; and when it is contained the
path finds the route that the tokens reach if and only if none does. -/
theorem Reachable.contains_iff_find {r : Router} (h : r.Reachable) (m : Method) {ts : List Text}
    (hts : ∀ t ∈ ts, t.IsToken) :
    let path := Pattern.render (ts.map .literal)
    ((r.forest.root m).Uncut ts →
      (r.contains m path = .ok true ↔ r.seal.Finds m path)) ∧
    (r.contains m path = .ok true →
      (r.seal.foundAt? m path = (r.forest.root m).aim? (ts.map .literal) ↔
        (r.forest.root m).Uncut ts)) := by
  intro path
  have hsound := h.sound.root m
  have hplain : ∀ t ∈ ts, t ≠ [] ∧ '/' ∉ t := fun t ht => ⟨(hts t ht).1, (hts t ht).2.1⟩
  have hpath : Text.Percent.text path = Instance.path (ts.map Instance.ofToken) :=
    Text.Percent.text_render hts
  -- What is found is where the walk of the tokens ends.
  have harrive {arrival : Arrival Route} {route : Route} :
      r.seal.arrive? m (Text.Percent.text path) = some (arrival, route) ↔
        (r.forest.root m).walk? (joined (ts.map Instance.ofToken)) = some arrival ∧
          arrival.node.route = some route := by
    rw [Sealed.arrive?_eq_some_iff, hpath, Node.walks_path_iff, ← Node.walk?_eq_some_iff]
    rfl
  constructor
  · intro huncut
    rw [contains_tokens_iff hts, ← hsound.node_walk?_tokens hplain huncut, Sealed.finds_iff]
    constructor
    · rintro ⟨c, route, hwalk, hroute⟩
      obtain ⟨arrival, harrival, rfl⟩ := Option.map_eq_some_iff.1 hwalk
      exact ⟨arrival, route, harrive.2 ⟨harrival, hroute⟩⟩
    · rintro ⟨arrival, route, harrived⟩
      obtain ⟨hwalk, hroute⟩ := harrive.1 harrived
      exact ⟨arrival.node, route, by rw [hwalk, Option.map_some], hroute⟩
  · intro hcontains
    obtain ⟨c, route, hreach, hroute⟩ := (contains_tokens_iff hts).1 hcontains
    constructor
    · intro hat
      obtain ⟨position, haim, -⟩ := Option.bind_eq_some_iff.1 (hsound.reach?_eq_aim _ ▸ hreach)
      rw [haim] at hat
      obtain ⟨⟨arrival, route'⟩, harrived, rfl⟩ := Option.map_eq_some_iff.1 hat
      exact (Node.walk?_eq_some_iff.1 (harrive.1 harrived).1).uncut hsound hplain haim
    · intro huncut
      rw [← hsound.node_walk?_tokens hplain huncut] at hreach
      obtain ⟨arrival, harrival, rfl⟩ := Option.map_eq_some_iff.1 hreach
      rw [← hsound.segments_walk?_tokens hplain huncut, Sealed.foundAt?,
        harrive.2 ⟨harrival, hroute⟩, harrival, Option.map_some, Option.map_some]

end Router

end

namespace Router

open Regex.Standard

/-- Beside `/a` the route `/{x}/b` is reached by the tokens of `/c/b`, none of which is cut
short. -/
theorem contains_iff_find_sample :
    let ts : List Text := [['c'], ['b']]
    let path := Pattern.render (ts.map .literal)
    (∀ t ∈ ts, t.IsToken) ∧ (sample.forest.root .get).Uncut ts ∧
      sample.contains .get path = .ok true ∧
      sample.seal.Finds .get path ∧
      sample.seal.foundAt? .get path = some [.wildcard ['x'], .literal ['b']] := by
  intro ts path
  have hts : ∀ t ∈ ts, t.IsToken := by decide
  have huncut : (sample.forest.root .get).Uncut ts := by
    refine Node.uncut_cons_iff.2 ⟨Or.inr fun id hid => ?_, fun c hc => ?_⟩
    · have hid' : Segment.literal id ∈ [Segment.literal ['a'], .wildcard ['x']] := hid
      obtain rfl : id = ['a'] := by simpa using hid'
      decide
    · cases hc
      refine Node.uncut_cons_iff.2 ⟨Or.inl List.mem_cons_self, fun c hc => ?_⟩
      cases hc
      intro above u after hsplit
      simp at hsplit
  have hcontains : sample.contains .get path = .ok true := rfl
  obtain ⟨hiff, hat⟩ := reachable_sample.contains_iff_find .get hts
  exact ⟨hts, huncut, hcontains, (hiff huncut).1 hcontains, (hat hcontains).2 huncut⟩

/-- A pattern of tokens may be contained although its path is not found: `/ab/b` reaches `/{x}/b`,
but its path goes along `/a`. -/
theorem exists_contains_not_find :
    ¬ ∀ (r : Router) (m : Method) (ts : List Text), r.Reachable → (∀ t ∈ ts, t.IsToken) →
      (r.contains m (Pattern.render (ts.map .literal)) = .ok true ↔
        r.seal.Finds m (Pattern.render (ts.map .literal))) := by
  intro h
  have hfinds := (h sample .get [['a', 'b'], ['b']] reachable_sample (by decide)).1 rfl
  exact hfinds _ rfl

end Router

end Routing
