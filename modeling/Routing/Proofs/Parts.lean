import Routing.Proofs.Finding

/-!
# Parts of a path

The parts of a path stand between its slashes. Tokens of a pattern were such parts as well, but a
tree does not keep where they ended: a walk may go from one literal to the next within a part.

* `Text.parts` — the parts of a path.
* `Spells.exists_groups` — a path that is spelled has a part for each group of neighbours.
* `Router.Reachable.parts_of_literals` — the parts of a path whose route has literals only, and when
  they are these literals.
-/

namespace Routing

namespace Text

/-- What stands between the slashes of a path, unless it is empty. -/
def parts (path : Text) : List Text := (pieces '/' path).filter (· ≠ [])

theorem pieces_append {sep : Char} {text rest first : Text} {more : List Text}
    (htext : sep ∉ text) (h : pieces sep rest = first :: more) :
    pieces sep (text ++ rest) = (text ++ first) :: more := by
  induction text with
  | nil => exact h
  | cons c text ih =>
    simp only [List.mem_cons, not_or] at htext
    rw [List.cons_append, pieces, if_neg (Ne.symm htext.1), ih htext.2]
    rfl

/-- The first piece is a part unless it is empty. -/
theorem parts_of_pieces {path first : Text} {more : List Text}
    (h : pieces '/' path = first :: more) :
    parts path =
      if first = [] then more.filter (· ≠ []) else first :: more.filter (· ≠ []) := by
  by_cases hfirst : first = [] <;> simp [parts, h, hfirst]

theorem parts_slash (path : Text) : parts ('/' :: path) = parts path := by
  simp [parts, pieces]

theorem pieces_append_sep (sep : Char) (before after : Text) :
    pieces sep (before ++ sep :: after) = pieces sep before ++ pieces sep after := by
  induction before with
  | nil => simp [pieces]
  | cons c before ih =>
    by_cases hc : c = sep
    · rw [List.cons_append, pieces, pieces, if_pos hc, if_pos hc, ih, List.cons_append]
    · obtain ⟨first, more, hfirst⟩ := List.exists_cons_of_ne_nil (pieces_ne_nil sep before)
      rw [hfirst, List.cons_append] at ih
      rw [List.cons_append, pieces, pieces, if_neg hc, if_neg hc, ih, hfirst]
      rfl

/-- The parts on both sides of a slash. -/
theorem parts_append_slash (before after : Text) :
    parts (before ++ '/' :: after) = parts before ++ parts after := by
  rw [parts, pieces_append_sep, List.filter_append, parts, parts]

theorem parts_of_not_mem {name : Text} (hne : name ≠ []) (h : '/' ∉ name) : parts name = [name] := by
  have hpieces : pieces '/' (name ++ []) = [name ++ []] := pieces_append h rfl
  rw [List.append_nil] at hpieces
  rw [parts, hpieces]
  simp [hne]

end Text

open Text (parts)

theorem Boundary.exists_pieces {rest : Text} (h : Boundary rest) :
    ∃ more, Text.pieces '/' rest = [] :: more := by
  rcases h with rfl | ⟨more, rfl⟩
  · exact ⟨[], rfl⟩
  · exact ⟨Text.pieces '/' more, by simp [Text.pieces]⟩

theorem Instance.texts_of_literals {is : List Instance} {ls : List Text}
    (h : is.map segment = ls.map .literal) (his : ∀ i ∈ is, i.Plain) : is.map text = ls := by
  induction is generalizing ls with
  | nil =>
    cases ls with
    | nil => rfl
    | cons l ls => cases h
  | cons i is ih =>
    obtain ⟨hi, hothers⟩ := List.forall_mem_cons.1 his
    cases ls with
    | nil => cases h
    | cons l ls =>
      obtain ⟨hl, hls⟩ := List.cons.inj h
      have hrest := ih hls hothers
      obtain ⟨segment, text⟩ := i
      obtain rfl : segment = .literal l := hl
      obtain rfl : text = l := hi
      rw [List.map_cons, hrest]

theorem length_le_length_flatten {α : Type} {groups : List (List α)}
    (h : ∀ g ∈ groups, g ≠ []) : groups.length ≤ groups.flatten.length := by
  induction groups with
  | nil => exact Nat.le_refl 0
  | cons g groups ih =>
    obtain ⟨hg, hgroups⟩ := List.forall_mem_cons.1 h
    have hpos : 0 < g.length := List.length_pos_iff.2 hg
    have hle := ih hgroups
    rw [List.length_cons, List.flatten_cons, List.length_append]
    omega

/-- Where there are as many groups as texts, every group is one text. -/
theorem map_flatten_of_length {groups : List (List Text)} (h : ∀ g ∈ groups, g ≠ [])
    (hlength : groups.length = groups.flatten.length) :
    groups.map List.flatten = groups.flatten := by
  induction groups with
  | nil => rfl
  | cons g groups ih =>
    obtain ⟨hg, hgroups⟩ := List.forall_mem_cons.1 h
    have hpos : 0 < g.length := List.length_pos_iff.2 hg
    have hle := length_le_length_flatten hgroups
    rw [List.length_cons, List.flatten_cons, List.length_append] at hlength
    obtain ⟨text, rfl⟩ := List.length_eq_one_iff.1 (show g.length = 1 by omega)
    have hrest : groups.length = groups.flatten.length := by
      rw [List.length_singleton] at hlength
      omega
    rw [List.map_cons, ih hgroups hrest]
    simp

section

variable [Regex.Engine]

/-- **A path that is spelled has a part for each group of neighbours.** Only the last one of a group
may be a wildcard, since a wildcard takes its part to the end. -/
theorem Spells.exists_groups {is : List Instance} {path : Text} (h : Spells is path)
    (hproper : ∀ i ∈ is, i.segment.Proper) :
    ∃ groups : List (List Instance), groups.flatten = is ∧
      (∀ g ∈ groups, g ≠ [] ∧ ∀ i ∈ g.dropLast, i.segment.isWildcard = false) ∧
      parts path = groups.map fun g => g.flatMap Instance.text := by
  induction h with
  | @nil gap hgap =>
    refine ⟨[], rfl, by simp, ?_⟩
    rcases hgap with rfl | rfl <;> rfl
  | @cons gap rest i is hgap hfits _ ih =>
    obtain ⟨hi, his⟩ := List.forall_mem_cons.1 hproper
    obtain ⟨groups, hflatten, hgroups, hparts⟩ := ih his
    obtain ⟨first, more, hrest⟩ := List.exists_cons_of_ne_nil (Text.pieces_ne_nil '/' rest)
    have hne : i.text ++ first ≠ [] := by
      intro hnil
      exact hfits.plain.text_ne_nil hi (List.append_eq_nil_iff.1 hnil).1
    have hpath : parts (gap ++ i.text ++ rest) = (i.text ++ first) :: more.filter (· ≠ []) := by
      have hpieces := Text.pieces_append (hfits.plain.not_mem_text hi) hrest
      have hbehind : parts (i.text ++ rest) = (i.text ++ first) :: more.filter (· ≠ []) := by
        rw [Text.parts_of_pieces hpieces, if_neg hne]
      rcases hgap with rfl | rfl
      · exact hbehind
      · rw [List.append_assoc, List.singleton_append, Text.parts_slash, hbehind]
    rw [Text.parts_of_pieces hrest] at hparts
    by_cases hfirst : first = []
    · -- The instance ends its part.
      rw [if_pos hfirst] at hparts
      refine ⟨[i] :: groups, by simp [hflatten], ?_, ?_⟩
      · exact List.forall_mem_cons.2 ⟨by simp, hgroups⟩
      · rw [hpath, hparts, hfirst]
        simp
    · -- The part goes on, so the instance is a literal and joins the next group.
      rw [if_neg hfirst] at hparts
      obtain ⟨g, groups, rfl, hg, hmore⟩ := List.map_eq_cons_iff.1 hparts.symm
      obtain ⟨⟨hgne, hgliterals⟩, hgroups⟩ := List.forall_mem_cons.1 hgroups
      have hliteral : i.segment.isWildcard = false := by
        by_contra hw
        obtain ⟨more', hmore'⟩ := (hfits.whole (by simpa using hw)).exists_pieces
        rw [hrest] at hmore'
        exact hfirst (List.cons.inj hmore').1
      refine ⟨(i :: g) :: groups, by simp [← hflatten], ?_, ?_⟩
      · refine List.forall_mem_cons.2 ⟨⟨by simp, ?_⟩, hgroups⟩
        rw [List.dropLast_cons_of_ne_nil hgne]
        exact List.forall_mem_cons.2 ⟨hliteral, hgliterals⟩
      · rw [hpath, List.map_cons, hmore, List.flatMap_cons, hg]

/-! ## Routes without wildcards -/

namespace Router

/-- **The parts of a path whose route has literals only** are these literals, some of them run
together with the next ones. They are the literals themselves if and only if there are as many. -/
theorem Reachable.parts_of_literals {r : Router} (h : r.Reachable) {m : Method} {path : Text}
    {found : Match} {ls : List Text} (hfind : (r.seal.find m path).answer = some (.ok found))
    (hat : r.seal.foundAt? m path = some (ls.map .literal)) :
    (∃ groups : List (List Text), groups.flatten = ls ∧ (∀ g ∈ groups, g ≠ []) ∧
        parts (Text.Percent.text path) = groups.map List.flatten) ∧
      (parts (Text.Percent.text path) = ls ↔
        (parts (Text.Percent.text path)).length = ls.length) := by
  obtain ⟨is, route, hspells, hroute, hat', -⟩ :=
    h.exists_spells_of_finds (Sealed.finds_of_find hfind)
  have hsegments : is.map Instance.segment = ls.map .literal :=
    Option.some.inj (hat'.symm.trans hat)
  have hproper : ∀ i ∈ is, i.segment.Proper := by
    intro i hi
    exact h.proper_of_table hroute i.segment (List.mem_map_of_mem hi)
  obtain ⟨neighbours, rfl, hneighbours, hparts⟩ := hspells.exists_groups hproper
  have htexts := Instance.texts_of_literals hsegments hspells.plain
  let groups := neighbours.map fun g => g.map Instance.text
  have hflatten : groups.flatten = ls := by
    rw [← htexts, List.map_flatten]
  have hgroups : ∀ g ∈ groups, g ≠ [] := by
    intro g hg
    obtain ⟨g', hg', rfl⟩ := List.mem_map.1 hg
    exact fun hnil => (hneighbours g' hg').1 (List.map_eq_nil_iff.1 hnil)
  have hparts' : parts (Text.Percent.text path) = groups.map List.flatten := by
    rw [hparts, List.map_map]
    exact List.map_congr_left fun g _ => List.flatMap_def
  refine ⟨⟨groups, hflatten, hgroups, hparts'⟩, fun heq => by rw [heq], fun hlength => ?_⟩
  rw [hparts', List.length_map, ← hflatten] at hlength
  rw [hparts', map_flatten_of_length hgroups hlength, hflatten]

end Router

end

namespace Router

open Regex.Standard

/-- A router with the route `/a/b`. -/
def pair : Router := ((Router.new {}).handle .get ['/', 'a', '/', 'b'] silent).router

theorem reachable_pair : pair.Reachable := .handle _ _ _ _ (.new _ _)

theorem parts_of_literals_pair :
    let path := ['/', 'a', '/', 'b', '/']
    let ls := [['a'], ['b']]
    ∃ found, (pair.seal.find .get path).answer = some (.ok found) ∧
      pair.seal.foundAt? .get path = some (ls.map .literal) ∧
      (∃ groups : List (List Text), groups.flatten = ls ∧ (∀ g ∈ groups, g ≠ []) ∧
          parts (Text.Percent.text path) = groups.map List.flatten) ∧
        (parts (Text.Percent.text path) = ls ↔
          (parts (Text.Percent.text path)).length = ls.length) := by
  intro path ls
  have hat : pair.seal.foundAt? .get path = some (ls.map .literal) := rfl
  exact ⟨_, rfl, hat, reachable_pair.parts_of_literals rfl hat⟩

/-- The literals of a route need not be the parts of a path that finds it: `/ab` finds `/a/b`. -/
theorem exists_parts_ne_literals :
    ¬ ∀ (r : Router) (m : Method) (path : Text) (found : Match) (ls : List Text), r.Reachable →
      (r.seal.find m path).answer = some (.ok found) →
      r.seal.foundAt? m path = some (ls.map .literal) → parts (Text.Percent.text path) = ls := by
  intro h
  have hparts : parts (Text.Percent.text ['/', 'a', 'b']) = [['a'], ['b']] :=
    h pair .get _ _ _ reachable_pair rfl rfl
  exact absurd hparts (by decide)

end Router

end Routing
