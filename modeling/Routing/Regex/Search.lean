import Routing.Regex.Expr

/-!
# Searching a text

Whether an expression matches is decided by carrying the set of all cursors that can be reached,
as a list in the order of their positions.

* `Expr.reach` — the cursors reached from a set of them.
* `Expr.search` — whether the expression matches anywhere in a text.
* `Expr.mem_reach`, `Expr.search_iff` — these say what `Expr.Matches` says.
-/

namespace Routing.Regex

namespace Cursor

/-- Puts a cursor into a list ordered by position, unless it is there. -/
def insert (p : Cursor) : List Cursor → List Cursor
  | [] => [p]
  | q :: rest =>
    if p = q then q :: rest
    else if p.index ≤ q.index then p :: q :: rest
    else q :: insert p rest

def union (s t : List Cursor) : List Cursor := s.foldr insert t

/-- `n` rounds of `f`, or fewer once a round changes nothing. -/
def power (f : List Cursor → List Cursor) : Nat → List Cursor → List Cursor
  | 0, s => s
  | n + 1, s =>
    let t := f s
    if t = s then s else power f n t

/-- What at most `n` rounds of `f` reach, the start included. -/
def upTo (f : List Cursor → List Cursor) : Nat → List Cursor → List Cursor
  | 0, s => s
  | n + 1, s =>
    let t := union s (f s)
    if t = s then s else upTo f n t

/-- The most characters any of the cursors has ahead. -/
def room (s : List Cursor) : Nat := s.foldr (fun p n => max p.rest.length n) 0

theorem mem_insert {p q : Cursor} {s : List Cursor} : q ∈ insert p s ↔ q = p ∨ q ∈ s := by
  induction s with
  | nil => simp [insert]
  | cons r s ih =>
    simp only [insert]
    split
    · rename_i h
      subst h
      simp
    · split
      · simp
      · simp only [List.mem_cons, ih]
        exact or_left_comm

theorem mem_union {q : Cursor} {s t : List Cursor} : q ∈ union s t ↔ q ∈ s ∨ q ∈ t := by
  induction s with
  | nil => simp [union]
  | cons p s ih =>
    simp only [union, List.foldr_cons, mem_insert, List.mem_cons] at ih ⊢
    rw [ih, or_assoc]

theorem length_le_room {p : Cursor} {s : List Cursor} (h : p ∈ s) : p.rest.length ≤ room s := by
  induction s with
  | nil => simp at h
  | cons q s ih =>
    simp only [room, List.foldr_cons] at ih ⊢
    rcases List.mem_cons.mp h with rfl | h
    · exact Nat.le_max_left _ _
    · exact Nat.le_trans (ih h) (Nat.le_max_right _ _)

variable {f : List Cursor → List Cursor} {R : Cursor → Cursor → Prop}

theorem mem_power (hf : ∀ s q, q ∈ f s ↔ ∃ p ∈ s, R p q) (n : Nat) (s : List Cursor)
    (q : Cursor) : q ∈ power f n s ↔ ∃ p ∈ s, Steps R n p q := by
  have step (n : Nat) (s : List Cursor) :
      (∃ p ∈ s, Steps R (n + 1) p q) ↔ ∃ m ∈ f s, Steps R n m q := by
    constructor
    · rintro ⟨p, hp, m, hm, hn⟩
      exact ⟨m, (hf s m).mpr ⟨p, hp, hm⟩, hn⟩
    · rintro ⟨m, hm, hn⟩
      obtain ⟨p, hp, hpm⟩ := (hf s m).mp hm
      exact ⟨p, hp, m, hpm, hn⟩
  have fixed (n : Nat) (s : List Cursor) (h : f s = s) : q ∈ s ↔ ∃ p ∈ s, Steps R n p q := by
    induction n with
    | zero => simp [Steps]
    | succ n ih => rw [step, h, ih]
  induction n generalizing s with
  | zero => simp [power, Steps]
  | succ n ih =>
    simp only [power]
    split
    · rename_i h
      exact fixed _ s h
    · exact (ih (f s)).trans (step n s).symm

theorem mem_upTo (hf : ∀ s q, q ∈ f s ↔ ∃ p ∈ s, R p q) (n : Nat) (s : List Cursor)
    (q : Cursor) : q ∈ upTo f n s ↔ ∃ k, k ≤ n ∧ ∃ p ∈ s, Steps R k p q := by
  induction n generalizing s with
  | zero => simp [upTo, Steps]
  | succ n ih =>
    simp only [upTo]
    split
    · rename_i h
      have closed (k : Nat) : ∀ p ∈ s, Steps R k p q → q ∈ s := by
        induction k with
        | zero => rintro p hp rfl; exact hp
        | succ k ihk =>
          rintro p hp ⟨m, hm, hk⟩
          have hm' : m ∈ union s (f s) := mem_union.mpr (.inr ((hf s m).mpr ⟨p, hp, hm⟩))
          exact ihk m (h ▸ hm') hk
      constructor
      · intro hq
        exact ⟨0, Nat.zero_le _, q, hq, rfl⟩
      · rintro ⟨k, -, p, hp, hk⟩
        exact closed k p hp hk
    · rw [ih]
      constructor
      · rintro ⟨k, hk, p, hp, hs⟩
        rcases mem_union.mp hp with hp | hp
        · exact ⟨k, by omega, p, hp, hs⟩
        · obtain ⟨o, ho, hop⟩ := (hf s p).mp hp
          exact ⟨k + 1, by omega, o, ho, p, hop, hs⟩
      · rintro ⟨k, hk, p, hp, hs⟩
        cases k with
        | zero => exact ⟨0, Nat.zero_le _, p, mem_union.mpr (.inl hp), hs⟩
        | succ k =>
          obtain ⟨m, hm, hs⟩ := hs
          exact ⟨k, by omega, m, mem_union.mpr (.inr ((hf s m).mpr ⟨p, hp, hm⟩)), hs⟩

end Cursor

/-- Steps that stay in place can be left out, and the others use up the text ahead. -/
theorem Steps.shorten {R : Cursor → Cursor → Prop}
    (hR : ∀ {p q}, R p q → q = p ∨ q.rest.length < p.rest.length) {n : Nat} {p q : Cursor}
    (h : Steps R n p q) : ∃ k, k ≤ p.rest.length ∧ Steps R k p q := by
  induction n generalizing p with
  | zero => exact ⟨0, Nat.zero_le _, h⟩
  | succ n ih =>
    obtain ⟨m, hm, hn⟩ := h
    obtain ⟨k, hk, hs⟩ := ih hn
    rcases hR hm with rfl | hlt
    · exact ⟨k, hk, hs⟩
    · exact ⟨k + 1, by omega, m, hm, hs⟩

theorem Steps.add {R : Cursor → Cursor → Prop} {a b : Nat} {p q : Cursor} :
    Steps R (a + b) p q ↔ ∃ m, Steps R a p m ∧ Steps R b m q := by
  induction a generalizing p with
  | zero => simp [Steps]
  | succ a ih =>
    rw [Nat.succ_add]
    simp only [Steps, ih]
    constructor
    · rintro ⟨m, hm, o, ha, hb⟩
      exact ⟨o, ⟨m, hm, ha⟩, hb⟩
    · rintro ⟨o, ⟨m, hm, ha⟩, hb⟩
      exact ⟨m, hm, o, ha, hb⟩

namespace Expr

/-- All cursors the expression reaches from one of the given ones. A repetition without an upper
bound needs no more rounds than there are characters ahead. -/
def reach : Expr → List Cursor → List Cursor
  | empty, s => s
  | set c, s => s.filterMap (·.advance c)
  | anchor a, s => s.filter (a.holds ·)
  | seq a b, s => b.reach (a.reach s)
  | alt a b, s => Cursor.union (a.reach s) (b.reach s)
  | times a least most, s =>
    let t := Cursor.power a.reach least s
    match most with
    | some most => if most < least then [] else Cursor.upTo a.reach (most - least) t
    | none => Cursor.upTo a.reach (Cursor.room t) t

/-- The expression matches somewhere in the text. -/
def search (e : Expr) (t : Text) : Bool :=
  !(e.reach (Cursor.onward 0 none t)).isEmpty

theorem mem_reach (e : Expr) (s : List Cursor) (q : Cursor) :
    q ∈ e.reach s ↔ ∃ p ∈ s, e.Matches p q := by
  induction e generalizing s q with
  | empty => simp [reach, Matches]
  | set c => simp [reach, Matches, List.mem_filterMap]
  | anchor a =>
    simp only [reach, Matches, List.mem_filter]
    constructor
    · rintro ⟨hq, ha⟩
      exact ⟨q, hq, ha, rfl⟩
    · rintro ⟨p, hp, ha, rfl⟩
      exact ⟨hp, ha⟩
  | seq a b iha ihb =>
    simp only [reach, Matches, ihb, iha]
    constructor
    · rintro ⟨m, ⟨p, hp, ha⟩, hb⟩
      exact ⟨p, hp, m, ha, hb⟩
    · rintro ⟨p, hp, m, ha, hb⟩
      exact ⟨m, ⟨p, hp, ha⟩, hb⟩
  | alt a b iha ihb =>
    simp only [reach, Matches, Cursor.mem_union, iha, ihb]
    constructor
    · rintro (⟨p, hp, h⟩ | ⟨p, hp, h⟩)
      · exact ⟨p, hp, .inl h⟩
      · exact ⟨p, hp, .inr h⟩
    · rintro ⟨p, hp, h | h⟩
      · exact .inl ⟨p, hp, h⟩
      · exact .inr ⟨p, hp, h⟩
  | times a least most ih =>
    have hpow := Cursor.mem_power (R := a.Matches) ih least s
    have split (n : Nat) : (∃ p ∈ s, Steps a.Matches (least + n) p q) ↔
        ∃ m ∈ Cursor.power a.reach least s, Steps a.Matches n m q := by
      simp only [hpow, Steps.add]
      constructor
      · rintro ⟨p, hp, m, ha, hb⟩
        exact ⟨m, ⟨p, hp, ha⟩, hb⟩
      · rintro ⟨m, ⟨p, hp, ha⟩, hb⟩
        exact ⟨p, hp, m, ha, hb⟩
    cases most with
    | none =>
      simp only [reach, Matches, Cursor.mem_upTo (R := a.Matches) ih]
      constructor
      · rintro ⟨k, -, m, hm, hk⟩
        obtain ⟨p, hp, hs⟩ := (split k).mpr ⟨m, hm, hk⟩
        exact ⟨p, hp, least + k, by omega, by simp, hs⟩
      · rintro ⟨p, hp, n, hn, -, hs⟩
        obtain ⟨k, rfl⟩ := Nat.exists_eq_add_of_le hn
        obtain ⟨m, hm, hk⟩ := (split k).mp ⟨p, hp, hs⟩
        obtain ⟨j, hj, hs⟩ := Steps.shorten Matches.eq_or_shorter hk
        exact ⟨j, Nat.le_trans hj (Cursor.length_le_room hm), m, hm, hs⟩
    | some most =>
      simp only [reach, Matches]
      split
      · rename_i hlt
        constructor
        · simp
        · rintro ⟨p, -, n, hn, hm, -⟩
          have := hm most rfl
          omega
      · rename_i hle
        simp only [Cursor.mem_upTo (R := a.Matches) ih]
        constructor
        · rintro ⟨k, hk, m, hm, hs⟩
          obtain ⟨p, hp, hs⟩ := (split k).mpr ⟨m, hm, hs⟩
          refine ⟨p, hp, least + k, by omega, ?_, hs⟩
          rintro _ ⟨⟩
          omega
        · rintro ⟨p, hp, n, hn, hm, hs⟩
          obtain ⟨k, rfl⟩ := Nat.exists_eq_add_of_le hn
          have := hm most rfl
          obtain ⟨m, hm, hs⟩ := (split k).mp ⟨p, hp, hs⟩
          exact ⟨k, by omega, m, hm, hs⟩

/-- A search finds what the expression matches, from any position of the text. -/
theorem search_iff (e : Expr) (t : Text) :
    e.search t = true ↔ ∃ p ∈ Cursor.onward 0 none t, ∃ q, e.Matches p q := by
  simp only [search, Bool.not_eq_true', List.isEmpty_eq_false_iff_exists_mem, mem_reach]
  constructor
  · rintro ⟨q, p, hp, h⟩
    exact ⟨p, hp, q, h⟩
  · rintro ⟨p, hp, q, h⟩
    exact ⟨q, p, hp, h⟩

end Expr

end Routing.Regex
