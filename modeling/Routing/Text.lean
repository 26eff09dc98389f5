/-!
# Text

Text is a list of characters, so that definitions follow it by recursion. Its size is counted in
the bytes of its UTF-8 form.

* `size_append` — sizes add up.
* `pieces` — the pieces between two occurrences of a separator, at least one of them.
* `cut` — the text before the first separator, and what follows it.
-/

namespace Routing

abbrev Text := List Char

namespace Text

/-- The bytes the text takes in UTF-8. -/
def size : Text → Nat
  | [] => 0
  | c :: t => c.utf8Size + size t

@[simp] theorem size_nil : size [] = 0 := rfl

@[simp] theorem size_cons (c : Char) (t : Text) : size (c :: t) = c.utf8Size + size t := rfl

@[simp] theorem size_append (s t : Text) : size (s ++ t) = size s + size t := by
  induction s with
  | nil => simp
  | cons c s ih => simp [ih, Nat.add_assoc]

/-- The pieces between the separators, the first and the last one included; all of the text
when it holds no separator. -/
def pieces (sep : Char) : Text → List Text
  | [] => [[]]
  | c :: t =>
    if c = sep then [] :: pieces sep t
    else
      match pieces sep t with
      | [] => [[c]]
      | p :: ps => (c :: p) :: ps

theorem pieces_ne_nil (sep : Char) (t : Text) : pieces sep t ≠ [] := by
  fun_induction pieces sep t <;> simp

theorem not_mem_of_mem_pieces {sep : Char} {t p : Text} (h : p ∈ pieces sep t) : sep ∉ p := by
  fun_induction pieces sep t generalizing p with
  | case1 => simp_all
  | case2 t ih =>
    rcases List.mem_cons.1 h with rfl | h
    · simp
    · exact ih h
  | case3 c t hc hp => exact absurd hp (pieces_ne_nil sep t)
  | case4 c t hc q qs hp ih =>
    rw [hp] at ih
    rcases List.mem_cons.1 h with rfl | h
    · simp only [List.mem_cons, not_or]
      exact ⟨Ne.symm hc, ih (List.mem_cons_self ..)⟩
    · exact ih (List.mem_cons_of_mem _ h)

/-- The words of a text, which blanks and line ends separate. -/
def words (t : Text) : List Text :=
  (pieces ' ' (t.map fun c => if c = '\n' then ' ' else c)).filter (· ≠ [])

/-- The text before the first separator, and what follows the separator if there is one. -/
def cut (sep : Char) : Text → Text × Option Text
  | [] => ([], none)
  | c :: t =>
    if c = sep then ([], some t)
    else
      let (before, after) := cut sep t
      (c :: before, after)

theorem not_mem_cut (sep : Char) (t : Text) : sep ∉ (cut sep t).1 := by
  induction t with
  | nil => simp [cut]
  | cons c t ih =>
    by_cases h : c = sep
    · simp [cut, h]
    · simp [cut, h, ih, Ne.symm h]

/-- Nothing but the separator is lost in a cut. -/
theorem cut_append (sep : Char) (t : Text) :
    (cut sep t).1 ++ ((cut sep t).2.map (sep :: ·)).getD [] = t := by
  induction t with
  | nil => rfl
  | cons c t ih =>
    by_cases h : c = sep
    · simp [cut, h]
    · simp [cut, h, ih]

theorem cut_append_cons {sep : Char} {s : Text} (h : sep ∉ s) (t : Text) :
    cut sep (s ++ sep :: t) = (s, some t) := by
  induction s with
  | nil => simp [cut]
  | cons c s ih =>
    simp only [List.mem_cons, not_or] at h
    simp [cut, Ne.symm h.1, ih h.2]

/-- Text that ends at a separator ends at the last one, or inside what is before that. -/
theorem eq_or_split_of_append_cons {sep : Char} {s tail t rest : Text} (htail : sep ∉ tail)
    (h : s ++ sep :: tail = t ++ sep :: rest) : t = s ∨ ∃ after, s = t ++ sep :: after := by
  rcases List.append_eq_append_iff.1 h with ⟨more, rfl, hmore⟩ | ⟨more, rfl, hmore⟩
  · cases more with
    | nil => exact Or.inl (List.append_nil s)
    | cons c more =>
      obtain ⟨-, rfl⟩ := List.cons.inj hmore
      exact absurd (by simp) htail
  · cases more with
    | nil => exact Or.inl (List.append_nil t).symm
    | cons c more =>
      obtain ⟨rfl, -⟩ := List.cons.inj hmore
      exact Or.inr ⟨more, rfl⟩

/-- What is left of `t` behind the opening `s`, if `t` opens with it. -/
def dropOpening? : (s t : Text) → Option Text
  | [], t => some t
  | _ :: _, [] => none
  | a :: s, b :: t => if a = b then dropOpening? s t else none

theorem dropOpening?_eq_some_iff {s t r : Text} : dropOpening? s t = some r ↔ t = s ++ r := by
  induction s generalizing t with
  | nil => simp [dropOpening?, eq_comm]
  | cons a s ih =>
    cases t with
    | nil => simp [dropOpening?]
    | cons b t =>
      by_cases h : a = b
      · simp [dropOpening?, h, ih]
      · simp [dropOpening?, h, Ne.symm h]

/-- The text without the characters `c` at its two ends. -/
def trim (c : Char) (t : Text) : Text :=
  ((t.dropWhile (· == c)).reverse.dropWhile (· == c)).reverse

/-- Texts joined with a separator between each two. -/
def join (sep : Text) : List Text → Text
  | [] => []
  | [t] => t
  | t :: ts => t ++ sep ++ join sep ts

/-- A number in decimal digits. -/
def ofNat (n : Nat) : Text := (Nat.toDigits 10 n)

end Text

end Routing
