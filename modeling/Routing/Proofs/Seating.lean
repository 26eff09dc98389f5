import Mathlib.Data.List.Induction
import Mathlib.Data.List.Sort
import Mathlib.Order.Defs.Unbundled

/-!
# Seating elements in a list

Branches of a node and methods of a forest are kept in lists that grow by one element at a time:
an element that is there already changes nothing, and a new one is put before the first that it
is to precede, behind all others.

* `seat`, `seatAll` — one element seated, and several of them one after the other.
* `seatAll_seatAll_nil` — seating elements among others is seating the list they form by
  themselves, so only that list matters, not the order of arrival.
* `seatAll_replicate` — arriving again changes nothing.
* `seatAll_congr_of_perm` — other orders of arrival that make no difference.
-/

namespace Routing

variable {α : Type} (lt : α → α → Prop) [DecidableRel lt]

theorem orderedInsert_append {l m : List α} {a : α} (h : ∀ b ∈ l, ¬ lt a b) :
    (l ++ m).orderedInsert lt a = l ++ m.orderedInsert lt a := by
  induction l with
  | nil => rfl
  | cons b l ih =>
    rw [List.cons_append, List.orderedInsert_cons, if_neg (h b (by simp)),
      ih fun c hc => h c (by simp [hc]), List.cons_append]

section
variable [IsStrictWeakOrder α lt]

/-- In a list in which nobody precedes an earlier one, whoever precedes an element precedes all
that follow. -/
theorem lt_of_lt_of_not_lt {a b c : α} (hab : lt a b) (hcb : ¬ lt c b) : lt a c := by
  by_contra hac
  have hca : ¬ lt c a := fun h => hcb (trans_of lt h hab)
  have hbc : ¬ lt b c := fun h => hac (trans_of lt hab h)
  exact (IsStrictWeakOrder.incomp_trans a c b ⟨hac, hca⟩ ⟨hcb, hbc⟩).1 hab

/-- Two elements of which one precedes the other are inserted in either order. -/
theorem orderedInsert_comm {a b : α} (h : lt a b) (l : List α) :
    (l.orderedInsert lt b).orderedInsert lt a = (l.orderedInsert lt a).orderedInsert lt b := by
  have hba : ¬ lt b a := asymm_of lt h
  induction l with
  | nil => simp [h, hba]
  | cons c l ih =>
    by_cases hbc : lt b c
    · have hac : lt a c := trans_of lt h hbc
      simp [hbc, hac, h, hba]
    · by_cases hac : lt a c <;> simp [hbc, hac, hba, ih]

/-- Nobody in the list precedes an earlier one. -/
def InOrder (l : List α) : Prop := l.Pairwise fun a b => ¬ lt b a

theorem inOrder_orderedInsert {l : List α} (h : InOrder lt l) (a : α) :
    InOrder lt (l.orderedInsert lt a) := by
  unfold InOrder at *
  induction l with
  | nil => simp
  | cons b l ih =>
    obtain ⟨hb, hl⟩ := List.pairwise_cons.1 h
    by_cases hab : lt a b
    · rw [List.orderedInsert_cons_of_le lt l hab]
      refine List.pairwise_cons.2 ⟨fun c hc => ?_, h⟩
      rcases List.mem_cons.1 hc with rfl | hc
      · exact asymm_of lt hab
      · exact asymm_of lt (lt_of_lt_of_not_lt lt hab (hb c hc))
    · rw [List.orderedInsert_of_not_le lt l hab]
      refine List.pairwise_cons.2 ⟨fun c hc => ?_, ih hl⟩
      rcases (List.mem_orderedInsert lt).1 hc with rfl | hc
      · exact hab
      · exact hb c hc

/-- In an ordered list an element is inserted before the ones it precedes. -/
theorem orderedInsert_split {l : List α} (h : InOrder lt l) (a : α) :
    ∃ before after, l = before ++ after ∧ l.orderedInsert lt a = before ++ a :: after ∧
      ∀ b ∈ after, lt a b := by
  induction l with
  | nil => exact ⟨[], [], rfl, rfl, by simp⟩
  | cons b l ih =>
    obtain ⟨hb, hl⟩ := List.pairwise_cons.1 h
    by_cases hab : lt a b
    · refine ⟨[], b :: l, rfl, List.orderedInsert_cons_of_le lt l hab, fun c hc => ?_⟩
      rcases List.mem_cons.1 hc with rfl | hc
      · exact hab
      · exact lt_of_lt_of_not_lt lt hab (hb c hc)
    · obtain ⟨before, after, rfl, hi, hlt⟩ := ih hl
      exact ⟨b :: before, after, rfl, by rw [List.orderedInsert_of_not_le lt _ hab, hi]; rfl, hlt⟩

end

variable [DecidableEq α]

/-- The list with one more element, unless it has it. -/
def seat (l : List α) (a : α) : List α := if a ∈ l then l else l.orderedInsert lt a

def seatAll (l as : List α) : List α := as.foldl (seat lt) l

theorem seat_of_mem {l : List α} {a : α} (h : a ∈ l) : seat lt l a = l := by
  simp [seat, h]

theorem seat_of_not_mem {l : List α} {a : α} (h : a ∉ l) :
    seat lt l a = l.orderedInsert lt a := by
  simp [seat, h]

@[simp] theorem mem_seat {l : List α} {a b : α} : b ∈ seat lt l a ↔ b ∈ l ∨ b = a := by
  by_cases h : a ∈ l
  · rw [seat_of_mem lt h]
    constructor
    · exact Or.inl
    · rintro (hb | rfl)
      · exact hb
      · exact h
  · rw [seat_of_not_mem lt h, List.mem_orderedInsert, or_comm]

@[simp] theorem seatAll_nil (l : List α) : seatAll lt l [] = l := rfl

@[simp] theorem seatAll_cons (l : List α) (a : α) (as : List α) :
    seatAll lt l (a :: as) = seatAll lt (seat lt l a) as := rfl

theorem seatAll_append (l as bs : List α) :
    seatAll lt l (as ++ bs) = seatAll lt (seatAll lt l as) bs := by
  simp [seatAll, List.foldl_append]

@[simp] theorem mem_seatAll {l as : List α} {b : α} : b ∈ seatAll lt l as ↔ b ∈ l ∨ b ∈ as := by
  induction as generalizing l with
  | nil => simp
  | cons a as ih => simp [ih, or_assoc]

/-- Elements that are there change nothing. -/
theorem seatAll_of_subset {l as : List α} (h : ∀ a ∈ as, a ∈ l) : seatAll lt l as = l := by
  induction as with
  | nil => rfl
  | cons a as ih =>
    rw [seatAll_cons, seat_of_mem lt (h a (by simp))]
    exact ih fun b hb => h b (by simp [hb])

/-- An element that precedes nobody goes to the end. -/
theorem seat_last {l : List α} {a : α} (hm : a ∉ l) (h : ∀ b ∈ l, ¬ lt a b) :
    seat lt l a = l ++ [a] := by
  rw [seat_of_not_mem lt hm]
  simpa using orderedInsert_append lt (m := []) h

section
variable [IsStrictWeakOrder α lt]

theorem seat_comm {a b : α} (h : lt a b) (l : List α) :
    seat lt (seat lt l b) a = seat lt (seat lt l a) b := by
  have hne : a ≠ b := ne_of_irrefl h
  by_cases ha : a ∈ l
  · rw [seat_of_mem lt ha, seat_of_mem lt (by simp [ha])]
  · by_cases hb : b ∈ l
    · rw [seat_of_mem lt hb, seat_of_mem lt (l := seat lt l a) (by simp [hb])]
    · rw [seat_of_not_mem lt (l := seat lt l b) (by simp [ha, hne]),
        seat_of_not_mem lt (l := seat lt l a) (by simp [hb, hne.symm]),
        seat_of_not_mem lt ha, seat_of_not_mem lt hb, orderedInsert_comm lt h]

/-- Two elements can be seated in either order unless neither precedes the other. -/
theorem seat_swap {a b : α} (h : a = b ∨ lt a b ∨ lt b a) (l : List α) :
    seat lt (seat lt l b) a = seat lt (seat lt l a) b := by
  rcases h with rfl | h | h
  · rfl
  · exact seat_comm lt h l
  · exact (seat_comm lt h l).symm

theorem seat_seatAll {a : α} {bs : List α} (h : ∀ b ∈ bs, a = b ∨ lt a b ∨ lt b a)
    (l : List α) : seat lt (seatAll lt l bs) a = seatAll lt (seat lt l a) bs := by
  induction bs generalizing l with
  | nil => rfl
  | cons b bs ih =>
    rw [seatAll_cons, seatAll_cons, ih fun c hc => h c (by simp [hc]), seat_swap lt (h b (by simp))]

theorem inOrder_seat {l : List α} (h : InOrder lt l) (a : α) : InOrder lt (seat lt l a) := by
  by_cases ha : a ∈ l
  · rwa [seat_of_mem lt ha]
  · rw [seat_of_not_mem lt ha]
    exact inOrder_orderedInsert lt h a

theorem inOrder_seatAll {l : List α} (h : InOrder lt l) (as : List α) :
    InOrder lt (seatAll lt l as) := by
  induction as generalizing l with
  | nil => exact h
  | cons a as ih => exact ih (inOrder_seat lt h a)

theorem seatAll_seat {l m : List α} (hm : InOrder lt m) (a : α) :
    seatAll lt l (seat lt m a) = seat lt (seatAll lt l m) a := by
  by_cases ha : a ∈ m
  · rw [seat_of_mem lt ha, seat_of_mem lt (by simp [ha])]
  · obtain ⟨before, after, rfl, hi, hlt⟩ := orderedInsert_split lt hm a
    rw [seat_of_not_mem lt ha, hi, seatAll_append, seatAll_cons, seatAll_append,
      seat_seatAll lt fun b hb => Or.inr (Or.inl (hlt b hb))]

/-- **Only the list matters that the elements form by themselves.** -/
theorem seatAll_seatAll_nil (l as : List α) :
    seatAll lt l (seatAll lt [] as) = seatAll lt l as := by
  induction as using List.reverseRecOn with
  | nil => rfl
  | append_singleton as a ih =>
    have ordered : InOrder lt (seatAll lt [] as) := inOrder_seatAll lt List.Pairwise.nil as
    rw [seatAll_append, seatAll_append]
    exact (seatAll_seat lt ordered a).trans (congrArg (seat lt · a) ih)

/-- Elements that can be seated in any order may as well come last. -/
theorem seatAll_partition (p : α → Bool) {as : List α}
    (h : ∀ a ∈ as, p a = false → ∀ b ∈ as, a = b ∨ lt a b ∨ lt b a) (l : List α) :
    seatAll lt l as = seatAll lt (seatAll lt l (as.filter p)) (as.filter (!p ·)) := by
  induction as generalizing l with
  | nil => rfl
  | cons a as ih =>
    have hrest : ∀ b ∈ as, p b = false → ∀ c ∈ as, b = c ∨ lt b c ∨ lt c b :=
      fun b hb hp c hc => h b (by simp [hb]) hp c (by simp [hc])
    cases hp : p a with
    | true => simp [hp, ih hrest]
    | false =>
      have hswap : ∀ b ∈ as.filter p, a = b ∨ lt a b ∨ lt b a := fun b hb =>
        h a (by simp) hp b (by simp [(List.mem_filter.1 hb).1])
      simp [hp, ih hrest, seat_seatAll lt hswap]

/-- **Who arrives when matters only among those of whom neither precedes the other.** -/
theorem seatAll_congr_of_perm (p : α → Bool) {as bs : List α} (hperm : as.Perm bs)
    (hp : as.filter p = bs.filter p)
    (h : ∀ a ∈ as, p a = false → ∀ b ∈ as, a = b ∨ lt a b ∨ lt b a) (l : List α) :
    seatAll lt l as = seatAll lt l bs := by
  have h' : ∀ b ∈ bs, p b = false → ∀ c ∈ bs, b = c ∨ lt b c ∨ lt c b :=
    fun b hb hpb c hc => h b (hperm.mem_iff.2 hb) hpb c (hperm.mem_iff.2 hc)
  rw [seatAll_partition lt p h, seatAll_partition lt p h', hp]
  apply (hperm.filter (!p ·)).foldl_eq'
  intro a ha b hb l
  obtain ⟨ha, hpa⟩ := List.mem_filter.1 ha
  exact (seat_swap lt (h a ha (by simpa using hpa) b (List.mem_filter.1 hb).1) l).symm

end

theorem seatAll_replicate (l : List α) (a : α) (k : Nat) :
    seatAll lt l (List.replicate (k + 1) a) = seat lt l a := by
  rw [List.replicate_succ, seatAll_cons]
  exact seatAll_of_subset lt fun b hb => by simp [List.eq_of_mem_replicate hb]

/-- It does not matter how often one element arrives, if it does. -/
theorem seatAll_congr_of_constant {as bs : List α} {a : α} (h : ∀ b, b ∈ as ↔ b ∈ bs)
    (ha : ∀ b ∈ as, b = a) (l : List α) : seatAll lt l as = seatAll lt l bs := by
  have hb : ∀ b ∈ bs, b = a := fun b hm => ha b ((h b).2 hm)
  rw [List.eq_replicate_of_mem ha, List.eq_replicate_of_mem hb]
  cases as with
  | nil =>
    have hnil : bs = [] := List.eq_nil_iff_forall_not_mem.2 fun b hm => by simpa using (h b).2 hm
    rw [hnil]
  | cons c as =>
    obtain ⟨k, hk⟩ : ∃ k, bs.length = k + 1 := by
      have hm : c ∈ bs := (h c).1 (by simp)
      exact Nat.exists_eq_add_one.2 (List.length_pos_of_mem hm)
    rw [hk, List.length_cons, seatAll_replicate, seatAll_replicate]

end Routing
