import Mathlib.Data.List.Induction
import Routing.Pattern.Scan
import Routing.Proofs.Parts
import Routing.Proofs.Splitting

/-!
# The grammar of patterns

A pattern that splits is laid out in one way: literal text without braces, and between two of these
the body of a wildcard, whose own braces are balanced. What a backslash hides in a body is no brace.
It hides the brace behind the body as well, so no body ends in a backslash that is not hidden.

* `Scans` — how many braces a text leaves open.
* `closed_or_unclosed` — a brace is closed in a text, or it is never closed.
* `readFrom_bare`, `readFrom_close`, `readFrom_unclosed`, `readFrom_wildcard` — reading up to the
  first brace, and over the wildcard that it opens.
* `readFrom_eq_ok_iff` — a pattern splits into the segments of its layout.
* `Layout.unique` — there is no more than one.
-/

namespace Routing.Pattern

/-- A text opens and closes braces: of `d` that were open before it, it leaves `e` open, and at no
place are there fewer than none. A backslash hides the character behind it. -/
inductive Scans : Nat → Text → Nat → Prop
  | nil {d : Nat} : Scans d [] d
  | plain {d e : Nat} {c : Char} {t : Text} (hbackslash : c ≠ '\\') (hopen : c ≠ '{')
      (hclose : c ≠ '}') : Scans d t e → Scans d (c :: t) e
  | hidden {d e : Nat} {c : Char} {t : Text} : Scans d t e → Scans d ('\\' :: c :: t) e
  | opens {d e : Nat} {t : Text} : Scans (d + 1) t e → Scans d ('{' :: t) e
  | closes {d e : Nat} {t : Text} : Scans d t e → Scans (d + 1) ('}' :: t) e

/-- A text that closes none of the braces that were open before the `d` last ones, be it because its
last backslash hides what comes next. -/
def Unclosed (d : Nat) (t : Text) : Prop :=
  ∃ e, Scans d t e ∨ ∃ front, t = front ++ ['\\'] ∧ Scans d front e

theorem Scans.append {d e f : Nat} {s t : Text} (hs : Scans d s e) (ht : Scans e t f) :
    Scans d (s ++ t) f := by
  induction hs with
  | nil => exact ht
  | plain hbackslash hopen hclose _ ih => exact .plain hbackslash hopen hclose (ih ht)
  | hidden _ ih => exact .hidden (ih ht)
  | opens _ ih => exact .opens (ih ht)
  | closes _ ih => exact .closes (ih ht)

/-- **A brace is closed in a text, or it is never closed.** -/
theorem closed_or_unclosed (d : Nat) (t : Text) :
    (∃ body rest, t = body ++ '}' :: rest ∧ Scans d body 0) ∨ Unclosed d t := by
  -- What one more character does is seen from what the text before it has left open.
  induction t using List.reverseRecOn with
  | nil => exact Or.inr ⟨d, Or.inl .nil⟩
  | append_singleton t c ih =>
    rcases ih with ⟨body, rest, rfl, hbody⟩ | ⟨e, hscans | ⟨front, rfl, hfront⟩⟩
    · exact Or.inl ⟨body, rest ++ [c], by simp, hbody⟩
    · by_cases hbackslash : c = '\\'
      · exact Or.inr ⟨e, Or.inr ⟨t, by rw [hbackslash], hscans⟩⟩
      by_cases hopen : c = '{'
      · exact Or.inr ⟨e + 1, Or.inl (hscans.append (hopen ▸ .opens .nil))⟩
      by_cases hclose : c = '}'
      · cases e with
        | zero => exact Or.inl ⟨t, [], by rw [hclose], hscans⟩
        | succ e => exact Or.inr ⟨e, Or.inl (hscans.append (hclose ▸ .closes .nil))⟩
      · exact Or.inr ⟨e, Or.inl (hscans.append (.plain hbackslash hopen hclose .nil))⟩
    · rw [List.append_assoc]
      exact Or.inr ⟨e, Or.inl (hfront.append (.hidden .nil))⟩

/-- The brace that closes is the first one that can. -/
theorem Scans.unique {d : Nat} {body body' rest rest' : Text} (h : Scans d body 0)
    (h' : Scans d body' 0) (heq : body ++ '}' :: rest = body' ++ '}' :: rest') : body = body' := by
  generalize he : 0 = e at h
  induction h generalizing body' with
  | nil =>
    cases body' with
    | nil => rfl
    | cons c body' =>
      obtain ⟨rfl, -⟩ := List.cons.inj heq
      subst he
      cases h' with
      | plain _ _ hclose _ => exact absurd rfl hclose
  | plain hbackslash hopen hclose _ ih =>
    cases body' with
    | nil => exact absurd (List.cons.inj heq).1 hclose
    | cons c body' =>
      obtain ⟨rfl, hrest⟩ := List.cons.inj heq
      cases h' with
      | plain _ _ _ h' => rw [ih h' hrest he]
      | hidden _ => exact absurd rfl hbackslash
      | opens _ => exact absurd rfl hopen
      | closes _ => exact absurd rfl hclose
  | hidden _ ih =>
    cases h' with
    | nil => cases heq
    | plain hbackslash _ _ _ => exact absurd (List.cons.inj heq).1.symm hbackslash
    | hidden h' =>
      obtain ⟨rfl, hrest⟩ := List.cons.inj (List.cons.inj heq).2
      rw [ih h' hrest he]
    | opens _ => cases heq
    | closes _ => cases heq
  | opens _ ih =>
    cases h' with
    | nil => cases heq
    | plain _ hopen _ _ => exact absurd (List.cons.inj heq).1.symm hopen
    | hidden _ => cases heq
    | opens h' => rw [ih h' (List.cons.inj heq).2 he]
    | closes _ => cases heq
  | closes _ ih =>
    cases h' with
    | plain _ _ hclose _ => exact absurd (List.cons.inj heq).1.symm hclose
    | hidden _ => cases heq
    | opens _ => cases heq
    | closes h' => rw [ih h' (List.cons.inj heq).2 he]

/-! ## Layouts -/

/-- Text without braces. -/
def Bare (t : Text) : Prop := '{' ∉ t ∧ '}' ∉ t

/-- What stands between the braces of a wildcard. -/
structure IsBody (body : Text) : Prop where
  balanced : Scans 0 body 0
  named : (Text.cut ':' body).1 ≠ []
  expressed : (Text.cut ':' body).2 ≠ some []

/-- A pattern in its parts: literal text, and wildcards with literal text before them. -/
inductive Layout where
  | last (literal : Text)
  | wildcard (literal body : Text) (behind : Layout)

/-- The wildcard with this body. -/
def wildcardIn (body : Text) : Segment :=
  match Text.cut ':' body with
  | (name, none) => .wildcard name
  | (name, some raw) => .regex name raw

namespace Layout

def text : Layout → Text
  | last literal => literal
  | wildcard literal body behind => literal ++ '{' :: (body ++ '}' :: behind.text)

def segments : Layout → List Segment
  | last literal => literals literal
  | wildcard literal body behind => literals literal ++ wildcardIn body :: behind.segments

def WellFormed : Layout → Prop
  | last literal => Bare literal
  | wildcard literal body behind => Bare literal ∧ IsBody body ∧ behind.WellFormed

/-- **A pattern has no more than one layout.** -/
theorem unique {l l' : Layout} (h : l.WellFormed) (h' : l'.WellFormed) (heq : l.text = l'.text) :
    l = l' := by
  induction l generalizing l' with
  | last literal =>
    cases l' with
    | last literal' => exact congrArg last heq
    | wildcard literal' body' behind' =>
      refine absurd ?_ h.1
      rw [show literal = _ from heq]
      simp [text]
  | wildcard literal body behind ih =>
    cases l' with
    | last literal' =>
      refine absurd ?_ h'.1
      rw [← show _ = literal' from heq]
      simp [text]
    | wildcard literal' body' behind' =>
      obtain ⟨hliteral, hbody, hbehind⟩ := h
      obtain ⟨hliteral', hbody', hbehind'⟩ := h'
      have hcut := congrArg (Text.cut '{') heq
      rw [text, text, Text.cut_append_cons hliteral.1, Text.cut_append_cons hliteral'.1] at hcut
      obtain ⟨rfl, hrest⟩ := Prod.mk.inj hcut
      rw [Option.some.injEq] at hrest
      obtain rfl := hbody.balanced.unique hbody'.balanced hrest
      obtain ⟨-, hrest⟩ := List.cons.inj (List.append_cancel_left hrest)
      rw [ih hbehind hbehind' hrest]

end Layout

/-! ## Reading -/

theorem literals_append_slash (s t : Text) :
    literals (s ++ '/' :: t) = literals s ++ literals t := by
  simp only [literals, ← List.map_append]
  exact congrArg _ (Text.parts_append_slash s t)

theorem closePiece_eq {piece : Text} (h : '/' ∉ piece) (segments : List Segment) :
    closePiece segments piece = segments ++ literals piece := by
  unfold closePiece
  split
  · rename_i hnil
    rw [hnil]
    exact (List.append_nil _).symm
  · rename_i hne
    have hparts : literals piece = (Text.parts piece).map .literal := rfl
    rw [hparts, Text.parts_of_not_mem hne h]
    rfl

/-- In text without braces a reader takes up the pieces between the slashes. -/
theorem Reader.run_bare {t : Text} (ht : Bare t) {piece : Text} (hpiece : '/' ∉ piece)
    (offset : Nat) (segments : List Segment) :
    ∃ segments' piece', (⟨offset, segments, .literal piece⟩ : Reader).run t =
        .ok ⟨offset + Text.size t, segments', .literal piece'⟩ ∧
      closePiece segments' piece' = segments ++ literals (piece ++ t) := by
  induction t generalizing piece offset segments with
  | nil =>
    refine ⟨segments, piece, rfl, ?_⟩
    rw [closePiece_eq hpiece, List.append_nil]
  | cons c t ih =>
    have hrest : Bare t :=
      ⟨fun h => ht.1 (List.mem_cons_of_mem c h), fun h => ht.2 (List.mem_cons_of_mem c h)⟩
    have hopen : c ≠ '{' := fun h => ht.1 (h ▸ List.mem_cons_self)
    have hclose : c ≠ '}' := fun h => ht.2 (h ▸ List.mem_cons_self)
    by_cases hslash : c = '/'
    · -- The piece that the slash ends is closed.
      have hstep : (⟨offset, segments, .literal piece⟩ : Reader).step c =
          .ok ⟨offset + c.utf8Size, closePiece segments piece, .literal []⟩ := by
        simp [step, hslash]
      obtain ⟨segments', piece', hrun, hclosed⟩ :=
        ih hrest List.not_mem_nil (offset + c.utf8Size) (closePiece segments piece)
      refine ⟨segments', piece', ?_, ?_⟩
      · rw [run, hstep, Text.size_cons, ← Nat.add_assoc]
        exact hrun
      · rw [hclosed, closePiece_eq hpiece, hslash, literals_append_slash, List.append_assoc,
          List.nil_append]
    · have hstep : (⟨offset, segments, .literal piece⟩ : Reader).step c =
          .ok ⟨offset + c.utf8Size, segments, .literal (piece ++ [c])⟩ := by
        simp [step, hslash, hopen, hclose]
      have hpiece' : '/' ∉ piece ++ [c] := by
        simp [hpiece, Ne.symm hslash]
      obtain ⟨segments', piece', hrun, hclosed⟩ :=
        ih hrest hpiece' (offset + c.utf8Size) segments
      refine ⟨segments', piece', ?_, ?_⟩
      · rw [run, hstep, Text.size_cons, ← Nat.add_assoc]
        exact hrun
      · rw [hclosed, List.append_assoc, List.singleton_append]

/-- In the body of a wildcard a reader keeps count of the open braces. -/
theorem Reader.run_scans {d e : Nat} {t : Text} (h : Scans d t e) (offset start : Nat)
    (segments : List Segment) (body : Text) :
    (⟨offset, segments, .wildcard start body d⟩ : Reader).run t =
      .ok ⟨offset + Text.size t, segments, .wildcard start (body ++ t) e⟩ := by
  induction h generalizing offset body with
  | nil => simp [run]
  | @plain d e c t hbackslash hopen hclose _ ih =>
    have hstep : (⟨offset, segments, .wildcard start body d⟩ : Reader).step c =
        .ok ⟨offset + c.utf8Size, segments, .wildcard start (body ++ [c]) d⟩ := by
      simp [step, hbackslash, hopen, hclose]
    rw [run, hstep]
    simpa [Nat.add_assoc, bind, Except.bind] using ih (offset + c.utf8Size) (body ++ [c])
  | @hidden d e c t _ ih =>
    have hrest := ih (offset + '\\'.utf8Size + c.utf8Size) (body ++ ['\\', c])
    simpa [run, step, Nat.add_assoc, bind, Except.bind] using hrest
  | @opens d e t _ ih =>
    have hrest := ih (offset + '{'.utf8Size) (body ++ ['{'])
    simpa [run, step, Nat.add_assoc, bind, Except.bind] using hrest
  | @closes d e t _ ih =>
    have hrest := ih (offset + '}'.utf8Size) (body ++ ['}'])
    simpa [run, step, Nat.add_assoc, bind, Except.bind] using hrest

/-- The segments in the rest of a pattern, which `offset` bytes stand before. -/
def readFrom (offset : Nat) (t : Text) : Except Fault (List Segment) :=
  ((⟨offset, [], .literal []⟩ : Reader).run t).bind Reader.finish

theorem readFrom_bare {t : Text} (ht : Bare t) (offset : Nat) :
    readFrom offset t = .ok (literals t) := by
  obtain ⟨segments, piece, hrun, hclosed⟩ := Reader.run_bare ht List.not_mem_nil offset []
  rw [readFrom, hrun]
  exact congrArg Except.ok hclosed

theorem readFrom_close {literal : Text} (hliteral : Bare literal) (rest : Text) (offset : Nat) :
    readFrom offset (literal ++ '}' :: rest) =
      .error (.unexpectedClose (offset + Text.size literal)) := by
  obtain ⟨segments, piece, hrun, -⟩ := Reader.run_bare hliteral List.not_mem_nil offset []
  rw [readFrom, Reader.run_append, hrun]
  simp [Except.bind, Reader.run, Reader.step, bind]

/-- Behind literal text and an opening brace a reader is in the body of a wildcard. -/
theorem Reader.run_open {literal : Text} (hliteral : Bare literal) (t : Text) (offset : Nat) :
    (⟨offset, [], .literal []⟩ : Reader).run (literal ++ '{' :: t) =
      (⟨offset + Text.size literal + 1, literals literal,
        .wildcard (offset + Text.size literal) [] 0⟩ : Reader).run t := by
  obtain ⟨segments, piece, hrun, hclosed⟩ := Reader.run_bare hliteral List.not_mem_nil offset []
  rw [List.nil_append, List.nil_append] at hclosed
  rw [run_append, hrun, ← hclosed]
  rfl

theorem readFrom_unclosed {literal t : Text} (hliteral : Bare literal) (ht : Unclosed 0 t)
    (offset : Nat) :
    readFrom offset (literal ++ '{' :: t) =
      .error (.unterminated (offset + Text.size literal)) := by
  rw [readFrom, Reader.run_open hliteral]
  obtain ⟨e, hscans | ⟨front, rfl, hfront⟩⟩ := ht
  · rw [Reader.run_scans hscans]
    rfl
  · rw [Reader.run_append, Reader.run_scans hfront]
    rfl

theorem Fault.shift_zero (f : Fault) : f.shift 0 = f := by
  cases f <;> rfl

/-- Behind segments that were read the rest of a pattern is read as if it stood alone. -/
theorem finish_run_behind (before : List Segment) (offset : Nat) (t : Text) :
    ((⟨offset, before, .literal []⟩ : Reader).run t).bind Reader.finish =
      (readFrom offset t).map (before ++ ·) := by
  have hbehind : (⟨offset, before, .literal []⟩ : Reader) =
      (⟨offset, [], .literal []⟩ : Reader).behind before 0 := by
    simp [Reader.behind, Place.shift]
  have hshift : Fault.shift 0 = id := funext Fault.shift_zero
  rw [readFrom, hbehind, Reader.run_behind, hshift]
  cases (⟨offset, [], .literal []⟩ : Reader).run t with
  | error f => rfl
  | ok r =>
    simp only [Except.map, Except.mapError, Except.bind, Reader.finish_behind, hshift]
    cases r.finish <;> rfl

theorem readFrom_wildcard {literal body : Text} (hliteral : Bare literal) (hbody : Scans 0 body 0)
    (rest : Text) (offset : Nat) :
    readFrom offset (literal ++ '{' :: (body ++ '}' :: rest)) =
      (wildcardOf (offset + Text.size literal) body).bind fun wildcard =>
        (readFrom (offset + Text.size literal + 1 + Text.size body + 1) rest).map
          (literals literal ++ wildcard :: ·) := by
  rw [readFrom, Reader.run_open hliteral, Reader.run_append, Reader.run_scans hbody]
  simp only [Except.bind, Reader.run, Reader.step, List.nil_append]
  cases wildcardOf (offset + Text.size literal) body with
  | error f => rfl
  | ok wildcard =>
    have hrest := finish_run_behind (literals literal ++ [wildcard])
      (offset + Text.size literal + 1 + Text.size body + 1) rest
    have hsize : '}'.utf8Size = 1 := rfl
    simpa [bind, Except.bind, hsize] using hrest

/-! ## Patterns that split -/

/-- A pattern is laid out as literal text up to its first brace, or all of it. -/
theorem bare_cases (t : Text) :
    Bare t ∨ (∃ literal rest, t = literal ++ '}' :: rest ∧ Bare literal) ∨
      ∃ literal rest, t = literal ++ '{' :: rest ∧ Bare literal := by
  induction t with
  | nil => exact Or.inl ⟨List.not_mem_nil, List.not_mem_nil⟩
  | cons c t ih =>
    by_cases hopen : c = '{'
    · exact Or.inr (Or.inr ⟨[], t, by rw [hopen]; rfl, List.not_mem_nil, List.not_mem_nil⟩)
    by_cases hclose : c = '}'
    · exact Or.inr (Or.inl ⟨[], t, by rw [hclose]; rfl, List.not_mem_nil, List.not_mem_nil⟩)
    have hcons {literal : Text} (h : Bare literal) : Bare (c :: literal) := by
      simpa [Bare, Ne.symm hopen, Ne.symm hclose] using h
    rcases ih with ht | ⟨literal, rest, rfl, hliteral⟩ | ⟨literal, rest, rfl, hliteral⟩
    · exact Or.inl (hcons ht)
    · exact Or.inr (Or.inl ⟨c :: literal, rest, rfl, hcons hliteral⟩)
    · exact Or.inr (Or.inr ⟨c :: literal, rest, rfl, hcons hliteral⟩)

theorem wildcardOf_eq_ok_iff {index : Nat} {body : Text} {wildcard : Segment} :
    wildcardOf index body = .ok wildcard ↔
      (Text.cut ':' body).1 ≠ [] ∧ (Text.cut ':' body).2 ≠ some [] ∧
        wildcard = wildcardIn body := by
  unfold wildcardOf wildcardIn
  rcases Text.cut ':' body with ⟨_ | ⟨c, name⟩, _ | _ | ⟨d, raw⟩⟩ <;> simp [eq_comm]

/-- A layout is read as its segments. -/
theorem Layout.readFrom_text {layout : Layout} (h : layout.WellFormed) (offset : Nat) :
    readFrom offset layout.text = .ok layout.segments := by
  induction layout generalizing offset with
  | last literal => exact readFrom_bare h offset
  | wildcard literal body behind ih =>
    obtain ⟨hliteral, hbody, hbehind⟩ := h
    have hwildcard : wildcardOf (offset + Text.size literal) body = .ok (wildcardIn body) :=
      wildcardOf_eq_ok_iff.2 ⟨hbody.named, hbody.expressed, rfl⟩
    rw [text, readFrom_wildcard hliteral hbody.balanced, hwildcard]
    simp only [Except.bind, ih hbehind]
    rfl

/-- What is read without a fault has a layout. -/
theorem exists_layout {offset : Nat} {t : Text} {segments : List Segment}
    (h : readFrom offset t = .ok segments) :
    ∃ layout : Layout, layout.WellFormed ∧ layout.text = t ∧ layout.segments = segments := by
  induction hlength : t.length using Nat.strongRecOn generalizing offset t segments with
  | ind n ih =>
    rcases bare_cases t with ht | ⟨literal, rest, rfl, hliteral⟩ | ⟨literal, rest, rfl, hliteral⟩
    · rw [readFrom_bare ht] at h
      exact ⟨.last t, ht, rfl, Except.ok.inj h⟩
    · rw [readFrom_close hliteral] at h
      cases h
    · rcases closed_or_unclosed 0 rest with ⟨body, rest, rfl, hbody⟩ | hrest
      · rw [readFrom_wildcard hliteral hbody] at h
        cases hwildcard : wildcardOf (offset + Text.size literal) body with
        | error f =>
          rw [hwildcard] at h
          cases h
        | ok wildcard =>
          obtain ⟨hnamed, hexpressed, rfl⟩ := wildcardOf_eq_ok_iff.1 hwildcard
          rw [hwildcard, Except.bind] at h
          cases hbehind : readFrom (offset + Text.size literal + 1 + Text.size body + 1) rest with
          | error f =>
            rw [hbehind] at h
            cases h
          | ok behind =>
            rw [hbehind] at h
            obtain rfl := Except.ok.inj h
            have hshorter : rest.length < n := by
              rw [← hlength]
              simp
              omega
            obtain ⟨layout, hlayout, rfl, rfl⟩ := ih rest.length hshorter hbehind rfl
            exact ⟨.wildcard literal body layout, ⟨hliteral, ⟨hbody, hnamed, hexpressed⟩, hlayout⟩,
              rfl, rfl⟩
      · rw [readFrom_unclosed hliteral hrest] at h
        cases h

/-- **A pattern splits into the segments of its layout.** -/
theorem readFrom_eq_ok_iff {offset : Nat} {t : Text} {segments : List Segment} :
    readFrom offset t = .ok segments ↔
      ∃ layout : Layout, layout.WellFormed ∧ layout.text = t ∧ layout.segments = segments := by
  constructor
  · exact exists_layout
  · rintro ⟨layout, hlayout, rfl, rfl⟩
    exact Layout.readFrom_text hlayout offset

end Routing.Pattern
