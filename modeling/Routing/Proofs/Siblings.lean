import Routing.Proofs.Seating
import Routing.Tree.Growth

/-!
# Branches side by side

The branches of a node, named by the segments they were made from. Literals stand first, longer
ones before their beginnings; then wildcards with an expression; then the plain wildcard, of which
there is one.

* `Segment.Before` — the order in which branches are seated.
* `Segment.Clashes` — wildcards that no node has both of.
* `Segment.Leads` — which segment may stand somewhere before which.
* `pairwise_leads_seat` — a segment that clashes with nobody can be seated.
* `next?` — the segment behind a position on the way along other segments.
-/

namespace Routing

namespace Segment

/-- A branch for `s` is put before the first one for a `t` like this. -/
def Before : Segment → Segment → Prop
  | literal a, literal b => b < a
  | literal _, _ => True
  | regex _ _, wildcard _ => True
  | _, _ => False

instance : DecidableRel Before
  | literal a, literal b => inferInstanceAs (Decidable (b < a))
  | literal _, regex _ _ | literal _, wildcard _ | regex _ _, wildcard _ =>
    inferInstanceAs (Decidable True)
  | regex _ _, literal _ | regex _ _, regex _ _ | wildcard _, literal _ | wildcard _, regex _ _
  | wildcard _, wildcard _ => inferInstanceAs (Decidable False)

instance : IsStrictWeakOrder Segment Before where
  irrefl s := by cases s <;> simp [Before]
  trans s t u := by
    cases s <;> cases t <;> cases u <;> simp only [Before, imp_self, implies_true, false_implies]
    exact fun h h' => List.lt_trans h' h
  incomp_trans s t u := by cases s <;> cases t <;> cases u <;> simp only [Before] <;> grind

/-- The wildcards take the same texts under different names. -/
def Clashes : Segment → Segment → Prop
  | regex a raw, regex b raw' => raw = raw' ∧ a ≠ b
  | wildcard a, wildcard b => a ≠ b
  | _, _ => False

/-- A branch for `s` may stand somewhere before one for `t`. -/
def Leads : Segment → Segment → Prop
  | literal a, literal b => b < a
  | literal _, _ => True
  | regex _ raw, regex _ raw' => raw ≠ raw'
  | regex _ _, wildcard _ => True
  | _, _ => False

theorem Clashes.symm {s t : Segment} (h : s.Clashes t) : t.Clashes s := by
  cases s <;> cases t <;> simp only [Clashes] at h ⊢
  · exact h.symm
  · exact ⟨h.1.symm, h.2.symm⟩

theorem not_clashes_self (s : Segment) : ¬ s.Clashes s := by
  cases s <;> simp [Clashes]

theorem leads_iff {s t : Segment} : s.Leads t ↔ s ≠ t ∧ ¬ s.Clashes t ∧ ¬ t.Before s := by
  cases s <;> cases t <;> simp only [Leads, Clashes, Before] <;> grind

theorem leads_of_before_of_leads {s t u : Segment} (h : s.Before t) (h' : t.Leads u) :
    s.Leads u := by
  cases s <;> cases t <;> cases u <;> simp only [Before, Leads] at h h' ⊢
  exact List.lt_trans h' h

theorem leads_of_before {s t : Segment} (h : s.Before t) : s.Leads t := by
  cases s <;> cases t <;> simp_all [Before, Leads]

/-- A segment that clashes with none of the others can be seated among them. -/
theorem pairwise_leads_seat {l : List Segment} {s : Segment} (hl : l.Pairwise Leads)
    (hs : ∀ t ∈ l, ¬ s.Clashes t) : (seat Before l s).Pairwise Leads := by
  by_cases hm : s ∈ l
  · rwa [seat_of_mem Before hm]
  rw [seat_of_not_mem Before hm]
  induction l with
  | nil => simp
  | cons t l ih =>
    obtain ⟨ht, hl'⟩ := List.pairwise_cons.1 hl
    by_cases hb : s.Before t
    · rw [List.orderedInsert_cons_of_le Before l hb]
      refine List.pairwise_cons.2 ⟨fun u hu => ?_, hl⟩
      rcases List.mem_cons.1 hu with rfl | hu
      · exact leads_of_before hb
      · exact leads_of_before_of_leads hb (ht u hu)
    · rw [List.orderedInsert_of_not_le Before l hb]
      have hne : s ∉ l := fun h => hm (by simp [h])
      refine List.pairwise_cons.2
        ⟨fun u hu => ?_, ih hl' (fun u hu => hs u (by simp [hu])) hne⟩
      rcases (List.mem_orderedInsert Before).1 hu with rfl | hu
      · have hc : ¬ t.Clashes u := fun h => hs t (by simp) h.symm
        exact leads_iff.2 ⟨fun h => hm (by simp [h]), hc, hb⟩
      · exact ht u hu

theorem nodup_of_pairwise_leads {l : List Segment} (h : l.Pairwise Leads) : l.Nodup :=
  h.imp fun h' => (leads_iff.1 h').1

/-- Of two segments that stand beside each other neither clashes with the other. -/
theorem not_clashes_of_mem {l : List Segment} (h : l.Pairwise Leads) {s t : Segment} (hs : s ∈ l)
    (ht : t ∈ l) : ¬ s.Clashes t := by
  induction h with
  | nil => simp at hs
  | cons hl _ ih =>
    rcases List.mem_cons.1 hs with rfl | hs' <;> rcases List.mem_cons.1 ht with rfl | ht'
    · exact not_clashes_self _
    · exact (leads_iff.1 (hl t ht')).2.1
    · exact fun hc => (leads_iff.1 (hl s hs')).2.1 hc.symm
    · exact ih hs' ht'

end Segment

/-- The segment behind a position on the way along the segments, if it is on the way. -/
def next? : (position segments : List Segment) → Option Segment
  | [], s :: _ => some s
  | p :: position, s :: rest => if p = s then next? position rest else none
  | _, [] => none

@[simp] theorem next?_nil (position : List Segment) : next? position [] = none := by
  cases position <;> rfl

@[simp] theorem next?_cons (s : Segment) (rest : List Segment) : next? [] (s :: rest) = some s :=
  rfl

@[simp] theorem next?_cons_cons (p s : Segment) (position rest : List Segment) :
    next? (p :: position) (s :: rest) = if p = s then next? position rest else none := rfl

theorem next?_eq_some_iff {position segments : List Segment} {s : Segment} :
    next? position segments = some s ↔ position ++ [s] <+: segments := by
  induction position generalizing segments with
  | nil => cases segments <;> simp [List.prefix_cons_iff, eq_comm]
  | cons p position ih =>
    cases segments with
    | nil => simp
    | cons t rest =>
      by_cases h : p = t
      · simp [h, ih, List.prefix_cons_iff]
      · simp [h, List.prefix_cons_iff]

@[simp] theorem next?_append (above position segments : List Segment) :
    next? (above ++ position) (above ++ segments) = next? position segments := by
  induction above with
  | nil => rfl
  | cons s above ih => simpa using ih

/-- Positions that do not go on from `above` are passed by all that goes on from it in the same
way. -/
theorem next?_append_of_not_above {above position : List Segment} (h : ¬ above <+: position)
    (segments : List Segment) : next? position (above ++ segments) = next? position above := by
  induction above generalizing position with
  | nil => exact absurd List.nil_prefix h
  | cons s above ih =>
    cases position with
    | nil => rfl
    | cons p position =>
      by_cases hp : p = s
      · have hrest : ¬ above <+: position := fun h' => h (by simp [hp, h'])
        simp [hp, ih hrest]
      · simp [hp]

/-- Two lists of segments go on differently from a common beginning, and no node has branches for
both. -/
def ClashAlong (a b : List Segment) : Prop :=
  ∃ position s t, next? position a = some s ∧ next? position b = some t ∧ s.Clashes t

theorem ClashAlong.symm {a b : List Segment} (h : ClashAlong a b) : ClashAlong b a := by
  obtain ⟨position, s, t, ha, hb, hc⟩ := h
  exact ⟨position, t, s, hb, ha, hc.symm⟩

/-- What stands above both lists has no part in it. -/
theorem clashAlong_append {above a b : List Segment} :
    ClashAlong (above ++ a) (above ++ b) ↔ ClashAlong a b := by
  constructor
  · rintro ⟨position, s, t, ha, hb, hc⟩
    by_cases h : above <+: position
    · obtain ⟨position, rfl⟩ := h
      rw [next?_append] at ha hb
      exact ⟨position, s, t, ha, hb, hc⟩
    · rw [next?_append_of_not_above h] at ha hb
      obtain rfl : s = t := Option.some.inj (ha.symm.trans hb)
      exact absurd hc (Segment.not_clashes_self s)
  · rintro ⟨position, s, t, ha, hb, hc⟩
    exact ⟨above ++ position, s, t, by rwa [next?_append], by rwa [next?_append], hc⟩

end Routing
