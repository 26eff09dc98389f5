import Mathlib.Data.List.Chain
import Routing.Proofs.Escaping
import Routing.Proofs.Sessions

/-!
# Slashes at the ends of a path

A walk skips one slash before each step and one where it ends, so a path leads to the same place
with a slash more at either end. It never skips two, and no part of a path is empty, so a path with
two slashes side by side leads nowhere.

* `Percent.text_append_slash` — what is before a slash is read apart from what is behind it, however
  they are escaped.
* `Node.Sound.trace?_append_slash` — a walk goes past one slash at the end.
* `Spells.not_doubled` — two slashes side by side are not spelled.
* `Router.Reachable.heeds_slashes` — what this means for the routes that are found.
-/

namespace Routing

/-! ## Decoding around a slash -/

namespace Text

namespace Utf8

/-- What goes beyond its bounds ends a character that is not complete, and is read afresh. -/
theorem decodeFrom_some_of_not {p : Partial} {b : UInt8} (h : ¬ (p.lo ≤ b.toNat ∧ b.toNat ≤ p.hi))
    (rest : Bytes) : decodeFrom (some p) (b :: rest) = none :: decodeFrom none (b :: rest) := by
  rw [decodeFrom_none_cons, decodeFrom]
  simp only [h, ↓reduceIte]
  split <;> rfl

/-- The bytes that go on a character begin none. -/
theorem le_lo_of_opening {n : Nat} {p : Partial} (h : opening n = some (.inr p)) : 0x80 ≤ p.lo := by
  unfold opening at h
  split at h
  · cases h
  split at h
  · cases h
  split at h
  · obtain rfl := Sum.inr.inj (Option.some.inj h)
    exact Nat.le_refl _
  split at h
  · obtain rfl := Sum.inr.inj (Option.some.inj h)
    dsimp only
    split <;> omega
  split at h
  · obtain rfl := Sum.inr.inj (Option.some.inj h)
    dsimp only
    split <;> omega
  · cases h

/-- **At a byte that is a character by itself all is read afresh.** -/
theorem decodeFrom_append {b : UInt8} (hb : b.toNat < 0x80) (bytes rest : Bytes)
    {pending : Option Partial} (hpending : ∀ p ∈ pending, 0x80 ≤ p.lo) :
    decodeFrom pending (bytes ++ b :: rest) =
      decodeFrom pending bytes ++ decodeFrom none (b :: rest) := by
  induction bytes generalizing pending with
  | nil =>
    cases pending with
    | none => rfl
    | some p =>
      have hlo := hpending p rfl
      rw [List.nil_append, decodeFrom_some_of_not (by omega)]
      rfl
  | cons c bytes ih =>
    have hnone : ∀ p ∈ (none : Option Partial), 0x80 ≤ p.lo := by simp
    have hfresh : decodeFrom none (c :: (bytes ++ b :: rest)) =
        decodeFrom none (c :: bytes) ++ decodeFrom none (b :: rest) := by
      rw [decodeFrom_none_cons, decodeFrom_none_cons c]
      split
      · rw [ih hnone, List.cons_append]
      · rw [ih hnone, List.cons_append]
      · rename_i p hopening
        exact ih fun p' hp' => Option.some.inj hp' ▸ le_lo_of_opening hopening
    cases pending with
    | none => exact hfresh
    | some p =>
      by_cases hc : p.lo ≤ c.toNat ∧ c.toNat ≤ p.hi
      · rw [List.cons_append, decodeFrom_some_cons hc, decodeFrom_some_cons hc]
        split
        · rw [ih hnone, List.cons_append]
        · exact ih fun p' hp' => Option.some.inj hp' ▸ Nat.le_refl _
      · rw [List.cons_append, decodeFrom_some_of_not hc, decodeFrom_some_of_not hc, hfresh,
          List.cons_append]

theorem lenient_append_slash (bytes rest : Bytes) :
    lenient (bytes ++ 0x2F :: rest) = lenient bytes ++ '/' :: lenient rest := by
  have hslash : decodeFrom none (0x2F :: rest) = some '/' :: decodeFrom none rest := by
    rw [decodeFrom_none_cons]
    rfl
  simp only [lenient, decode]
  rw [decodeFrom_append (by decide) bytes rest (by simp), hslash, List.map_append, List.map_cons]
  rfl

end Utf8

namespace Percent

/-- **No escaping goes past a byte that is no digit.** -/
theorem decodeBytes_append {b : UInt8} (hb : digit? b = none) (bytes rest : Bytes) :
    decodeBytes (bytes ++ b :: rest) = decodeBytes bytes ++ decodeBytes (b :: rest) := by
  fun_induction decodeBytes bytes with
  | case1 => rfl
  | case2 h l behind h' l' hl hh ih =>
    rw [List.cons_append, List.cons_append, List.cons_append, decodeBytes_escape hh hl, ih,
      List.cons_append]
  | case3 h l behind hdigits ih =>
    rw [List.cons_append, decodeBytes_percent, ih, List.cons_append]
    intro _ _ _ m n hsame hh hl
    cases hsame
    exact hdigits m n hh hl
  | case4 behind hshort ih =>
    -- One byte at most stands behind the percent sign, so `b` would be among its digits.
    rw [List.cons_append, decodeBytes_percent, ih, List.cons_append]
    intro _ _ _ m n hsame hh hl
    match behind with
    | [] =>
      cases hsame
      cases hb.symm.trans hh
    | [_] =>
      cases hsame
      cases hb.symm.trans hl
    | _ :: _ :: _ => exact hshort _ _ _ rfl
  | case5 c behind hc ih =>
    rw [List.cons_append, decodeBytes_plain hc, ih, List.cons_append]

theorem text_append_slash (path rest : Text) :
    text (path ++ '/' :: rest) = text path ++ '/' :: text rest := by
  have hencode : Utf8.encode (path ++ '/' :: rest) =
      Utf8.encode path ++ 0x2F :: Utf8.encode rest := by
    rw [Utf8.encode, List.flatMap_append, List.flatMap_cons]
    rfl
  rw [text, decode, hencode, decodeBytes_append (by decide), decodeBytes_plain (by decide),
    Utf8.lenient_append_slash]
  rfl

end Percent

end Text

section

variable [Regex.Engine]

/-! ## Walking past a slash -/

omit [Regex.Engine] in
theorem nextPart?_append_slash (ahead : Text) :
    nextPart? (ahead ++ ['/']) =
      (nextPart? ahead).map fun (part, rest) => (part, rest ++ ['/']) := by
  have htake (t : Text) : (t ++ ['/']).takeWhile (· != '/') = t.takeWhile (· != '/') := by
    induction t with
    | nil => rfl
    | cons c t ih => by_cases hc : c = '/' <;> simp [hc, ih]
  have hdrop (t : Text) : (t ++ ['/']).dropWhile (· != '/') = t.dropWhile (· != '/') ++ ['/'] := by
    induction t with
    | nil => rfl
    | cons c t ih => by_cases hc : c = '/' <;> simp [hc, ih]
  simp only [nextPart?, htake, hdrop]
  split <;> rfl

omit [Regex.Engine] in
theorem Text.dropOpening?_append_slash {id : Text} (hid : '/' ∉ id) (ahead : Text) :
    Text.dropOpening? id (ahead ++ ['/']) = (Text.dropOpening? id ahead).map (· ++ ['/']) := by
  apply Option.ext
  intro rest
  rw [Text.dropOpening?_eq_some_iff, Option.map_eq_some_iff]
  simp only [Text.dropOpening?_eq_some_iff]
  constructor
  · intro hsplit
    have hopens : id <+: ahead :=
      (prefix_append_of_boundary hid (Or.inr ⟨[], rfl⟩)).1 ⟨rest, hsplit.symm⟩
    obtain ⟨rest', rfl⟩ := hopens
    rw [List.append_assoc] at hsplit
    exact ⟨rest', rfl, List.append_cancel_left hsplit⟩
  · rintro ⟨rest', rfl, rfl⟩
    rw [List.append_assoc]

/-- A slash behind the text ahead is left over by every edge. -/
theorem Edge.advance?_append_slash {edge : Edge} (hproper : edge.segment.Proper) (ahead : Text) :
    edge.advance? (ahead ++ ['/']) =
      (edge.advance? ahead).map fun a => ⟨a.part, a.rest ++ ['/']⟩ := by
  cases edge with
  | literal id =>
    have hid : '/' ∉ id := hproper.2.1
    simp only [advance?, Text.dropOpening?_append_slash hid, Option.map_map]
    rfl
  | regex name c =>
    simp only [advance?, nextPart?_append_slash]
    cases nextPart? ahead with
    | none => rfl
    | some split =>
      obtain ⟨part, rest⟩ := split
      by_cases haccepts : c.accepts part = true <;> simp [haccepts]
  | wildcard name =>
    simp only [advance?, nextPart?_append_slash, Option.map_map]
    rfl

namespace Branches

variable {ρ : Type}

theorem follows_append_slash {b : Branches ρ} (hb : ∀ s ∈ b.segments, s.Proper) {ahead : Text}
    {edge : Edge} {child : Node ρ} {a' : Advance} :
    b.Follows (ahead ++ ['/']) edge child a' ↔
      ∃ a, b.Follows ahead edge child a ∧ a' = ⟨a.part, a.rest ++ ['/']⟩ := by
  have hadvance : ∀ c ∈ b.children, c.1.advance? (ahead ++ ['/']) =
      (c.1.advance? ahead).map fun a => ⟨a.part, a.rest ++ ['/']⟩ := by
    intro c hc
    exact Edge.advance?_append_slash (hb _ (segment_mem_segments hc)) ahead
  constructor
  · rintro ⟨before, after, hsplit, hedge, hbefore⟩
    rw [hsplit] at hadvance
    rw [hadvance (edge, child) (by simp)] at hedge
    obtain ⟨a, ha, rfl⟩ := Option.map_eq_some_iff.1 hedge
    refine ⟨a, ⟨before, after, hsplit, ha, fun c hc => ?_⟩, rfl⟩
    have hnone := hbefore c hc
    rwa [hadvance c (List.mem_append_left _ hc), Option.map_eq_none_iff] at hnone
  · rintro ⟨a, ⟨before, after, hsplit, hedge, hbefore⟩, rfl⟩
    rw [hsplit] at hadvance
    refine ⟨before, after, hsplit, ?_, fun c hc => ?_⟩
    · rw [hadvance (edge, child) (by simp), hedge, Option.map_some]
    · rw [hadvance c (List.mem_append_left _ hc), hbefore c hc, Option.map_none]

end Branches

omit [Regex.Engine] in
theorem skipSlash_of_head? {path : Text} (h : path.head? ≠ some '/') : skipSlash path = path := by
  unfold skipSlash
  split
  · exact absurd rfl h
  · rfl

omit [Regex.Engine] in
theorem skipSlash_append_slash {path : Text} (h : path ≠ []) :
    skipSlash (path ++ ['/']) = skipSlash path ++ ['/'] := by
  cases path with
  | nil => exact absurd rfl h
  | cons c rest => by_cases hc : c = '/' <;> simp [skipSlash, hc]

omit [Regex.Engine] in
theorem skipSlash_ne_nil {path : Text} (hne : path ≠ []) (h : path.getLast? ≠ some '/') :
    skipSlash path ≠ [] := by
  intro hstop
  obtain ⟨gap, hgap, hpath⟩ := exists_gap path
  rw [hstop, List.append_nil] at hpath
  subst hpath
  rcases hgap with rfl | rfl
  · exact hne rfl
  · exact h rfl

namespace Node

variable {ρ : Type}

theorem trace?_congr_skipSlash (n : Node ρ) {path path' : Text}
    (h : skipSlash path' = skipSlash path) : n.trace? path' = n.trace? path := by
  simp only [trace?, walk?, h]

/-- What is left of a path behind a branch that is followed. -/
theorem Sound.exists_of_follows {n child : Node ρ} (hn : n.Sound) {path : Text} {edge : Edge}
    {a : Advance} (h : n.below.Follows (skipSlash path) edge child a) :
    child.Sound ∧ ∃ taken, taken ≠ [] ∧ path = taken ++ a.rest := by
  have hfind := hn.find?_of_follows h
  have hproper : edge.segment.Proper := hn.proper [] _ (Branches.mem_segments_of_find? hfind)
  obtain ⟨before, after, -, hedge, -⟩ := h
  obtain ⟨i, hsegment, hahead, hfits, -⟩ := edge.exists_instance hedge
  have htext : i.text ≠ [] := hfits.plain.text_ne_nil (hsegment ▸ hproper)
  obtain ⟨gap, -, hpath⟩ := exists_gap path
  refine ⟨hn.child hfind, gap ++ i.text, by simp [htext], ?_⟩
  rw [hpath, hahead, List.append_assoc]

/-- **A walk goes past one slash at the end.** -/
theorem Sound.trace?_append_slash {n : Node ρ} (hn : n.Sound) {path : Text}
    (h : path.getLast? ≠ some '/') : n.trace? (path ++ ['/']) = n.trace? path := by
  -- Every step takes some text off the path, and what is left ends as the path does.
  induction hlength : path.length using Nat.strong_induction_on generalizing n path with
  | _ length ih =>
    subst hlength
    by_cases hempty : path = []
    · subst hempty
      rw [trace?_of_stop rfl, trace?_of_stop rfl]
    · have hskip := skipSlash_append_slash hempty
      have hgo := skipSlash_ne_nil hempty h
      have hgo' : skipSlash (path ++ ['/']) ≠ [] := by simp [hskip]
      have hfollows {edge : Edge} {child : Node ρ} {a' : Advance} :
          n.below.Follows (skipSlash (path ++ ['/'])) edge child a' ↔
            ∃ a, n.below.Follows (skipSlash path) edge child a ∧
              a' = ⟨a.part, a.rest ++ ['/']⟩ := by
        rw [hskip]
        exact Branches.follows_append_slash (hn.proper [])
      by_cases hsome : ∃ edge child a, n.below.Follows (skipSlash path) edge child a
      · obtain ⟨edge, child, a, ha⟩ := hsome
        obtain ⟨hchild, taken, htaken, hpath⟩ := hn.exists_of_follows ha
        have hshorter : a.rest.length < path.length := by
          have := List.length_pos_of_ne_nil htaken
          rw [hpath, List.length_append]
          omega
        have hlast : a.rest.getLast? ≠ some '/' := by
          intro hslash
          rw [hpath, List.getLast?_append, hslash] at h
          exact h rfl
        rw [trace?_of_follows hgo ha, trace?_of_follows hgo' (hfollows.2 ⟨a, ha, rfl⟩),
          ih _ hshorter hchild hlast rfl]
      · rw [trace?_of_not_follows hgo fun edge child a ha => hsome ⟨edge, child, a, ha⟩,
          trace?_of_not_follows hgo' fun edge child a' ha' => ?_]
        obtain ⟨a, ha, -⟩ := hfollows.1 ha'
        exact hsome ⟨edge, child, a, ha⟩

end Node

/-! ## Slashes side by side -/

/-- **No two slashes side by side are spelled.** -/
theorem Spells.not_doubled {is : List Instance} {path : Text} (h : Spells is path)
    (hproper : ∀ i ∈ is, i.segment.Proper) : ¬ ['/', '/'] <:+: path := by
  have hgaps {gap : Text} (hgap : gap = [] ∨ gap = ['/']) :
      gap.IsChain fun a b => a = '/' → b ≠ '/' := by
    rcases hgap with rfl | rfl
    · exact .nil
    · exact .singleton _
  -- The text of an instance is not empty and has no slash, so it keeps two gaps apart.
  have hchain : path.IsChain fun a b => a = '/' → b ≠ '/' := by
    induction h with
    | nil hgap => exact hgaps hgap
    | @cons gap rest i is hgap hfits _ ih =>
      obtain ⟨hi, his⟩ := List.forall_mem_cons.1 hproper
      have htext : ∀ c ∈ i.text, c ≠ '/' := by
        intro c hc
        exact ne_of_mem_of_not_mem hc (hfits.plain.not_mem_text hi)
      have hinner : i.text.Pairwise fun a b => a = '/' → b ≠ '/' :=
        List.pairwise_of_forall_mem_list fun _ _ b hb _ => htext b hb
      rw [List.append_assoc, List.isChain_append, List.isChain_append]
      refine ⟨hgaps hgap, ⟨hinner.isChain, ih his, ?_⟩, ?_⟩
      · intro a ha b _ hslash
        exact absurd hslash (htext a (List.mem_of_mem_getLast? ha))
      · intro a _ b hb _
        rw [List.head?_append_of_ne_nil _ (hfits.plain.text_ne_nil hi)] at hb
        exact htext b (List.mem_of_mem_head? hb)
  intro hdoubled
  have hpair := List.IsChain.infix hchain hdoubled
  exact List.isChain_pair.1 hpair rfl rfl

namespace Sealed

/-- One slash at either end of a path makes no difference to what is found for it, and two side by
side keep any route from being found. -/
structure HeedsSlashes (s : Sealed) (m : Method) (path : Text) : Prop where
  leading : (Text.Percent.text path).head? ≠ some '/' → s.Alike m path ('/' :: path)
  trailing : (Text.Percent.text path).getLast? ≠ some '/' → s.Alike m path (path ++ ['/'])
  doubled : ['/', '/'] <:+: Text.Percent.text path → ¬ s.Finds m path

theorem alike_of_trace? {s : Sealed} (h : s.forest.Sound) {m : Method} {path path' : Text}
    (htrace : (s.forest.root m).trace? (Text.Percent.text path') =
      (s.forest.root m).trace? (Text.Percent.text path)) : s.Alike m path path' := by
  apply alike_of_finding?
  rw [finding?_eq h, finding?_eq h, htrace]

theorem alike_cons_slash {s : Sealed} (h : s.forest.Sound) (m : Method) {path : Text}
    (hpath : (Text.Percent.text path).head? ≠ some '/') : s.Alike m path ('/' :: path) := by
  have htext : Text.Percent.text ('/' :: path) = '/' :: Text.Percent.text path :=
    Text.Percent.text_append_slash [] path
  apply alike_of_trace? h
  apply Node.trace?_congr_skipSlash
  rw [htext, skipSlash_of_head? hpath]
  rfl

theorem alike_append_slash {s : Sealed} (h : s.forest.Sound) (m : Method) {path : Text}
    (hpath : (Text.Percent.text path).getLast? ≠ some '/') :
    s.Alike m path (path ++ ['/']) := by
  have htext : Text.Percent.text (path ++ ['/']) = Text.Percent.text path ++ ['/'] :=
    Text.Percent.text_append_slash path []
  apply alike_of_trace? h
  rw [htext, (h.root m).trace?_append_slash hpath]

end Sealed

namespace Router

/-- **One slash more at an end of a path makes no difference**, and no path with two slashes side by
side is found, whatever was asked before. -/
theorem Reachable.heeds_slashes {r : Router} (h : r.Reachable) (calls : List Call) (m : Method)
    (path : Text) : (r.session calls).router.HeedsSlashes m path := by
  have hrecalls := h.recalls_session calls
  have hsound := hrecalls.sound h
  refine ⟨Sealed.alike_cons_slash hsound m, Sealed.alike_append_slash hsound m, ?_⟩
  intro hdoubled hfinds
  rw [Sealed.Finds, hrecalls.answer_find h] at hfinds
  obtain ⟨is, route, hspells, hroute, -⟩ := h.exists_spells_of_finds hfinds
  refine hspells.not_doubled (fun i hi => ?_) hdoubled
  exact h.proper_of_table hroute i.segment (List.mem_map_of_mem hi)

end Router

end

namespace Router

open Regex.Standard

/-- The sample captures the `q` of `q/b` with a slash at either end, but does not find `q//b`, one
slash of which is escaped. -/
theorem heeds_slashes_sample :
    let path := ['%', '7', '1', '/', 'b']
    let doubled := ['q', '%', '2', 'f', '/', 'b']
    let s := (sample.session [.find .get path]).router
    sample.Reachable ∧ (Text.Percent.text path).head? ≠ some '/' ∧
      (Text.Percent.text path).getLast? ≠ some '/' ∧
      ['/', '/'] <:+: Text.Percent.text doubled ∧
      (∃ found, (s.find .get ('/' :: path)).answer = some (.ok found) ∧
        (s.find .get (path ++ ['/'])).answer = some (.ok found) ∧
        found.params = ⟨[⟨['x'], ['q']⟩]⟩) ∧
      ¬ s.Finds .get doubled := by
  intro path doubled s
  have hhead : (Text.Percent.text path).head? ≠ some '/' := by decide
  have hlast : (Text.Percent.text path).getLast? ≠ some '/' := by decide
  have hdoubled : ['/', '/'] <:+: Text.Percent.text doubled := ⟨['q'], ['b'], rfl⟩
  have hpath := reachable_sample.heeds_slashes [.find .get path] .get path
  have hother := reachable_sample.heeds_slashes [.find .get path] .get doubled
  obtain ⟨found, hfound, hparams⟩ : ∃ found, (s.find .get path).answer = some (.ok found) ∧
      found.params = ⟨[⟨['x'], ['q']⟩]⟩ := ⟨_, rfl, rfl⟩
  exact ⟨reachable_sample, hhead, hlast, hdoubled,
    ⟨found, ((hpath.leading hhead).answer found).2 hfound,
      ((hpath.trailing hlast).answer found).2 hfound, hparams⟩, hother.doubled hdoubled⟩

end Router

end Routing
