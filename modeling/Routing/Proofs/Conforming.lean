import Routing.Proofs.Enclosing

/-!
# The standard engine does as documented

* `Cursor.In` — a cursor that stands somewhere in a text; matches do not leave the text.
* `Item.matches_seq_append` — the parts of a branch match one after the other.
* `exists_complete` — a group that is opened is closed, behind a text that is complete by itself.
* `Standard.reads_grouped` — a group, with or without anchors, is read as a list of parts.
* `Standard.documented` — what `Engine.Documented` says holds of the standard engine.
-/

namespace Routing.Regex

/-! ## Positions of a text -/

namespace Cursor

/-- The position behind one text and ahead of another. -/
def between (before ahead : Text) : Cursor := ⟨before.length, before.getLast?, ahead⟩

/-- The cursor stands somewhere in the text. -/
def In (t : Text) (p : Cursor) : Prop :=
  ∃ before ahead, t = before ++ ahead ∧ p = between before ahead

theorem mem_onward_between (before : Text) {ahead : Text} {p : Cursor} :
    p ∈ onward before.length before.getLast? ahead ↔
      ∃ more rest, ahead = more ++ rest ∧ p = between (before ++ more) rest := by
  induction ahead generalizing before with
  | nil => simp [onward, between, List.append_eq_nil_iff, and_assoc]
  | cons c ahead ih =>
    have hnext : onward (before.length + 1) (some c) ahead =
        onward (before ++ [c]).length (before ++ [c]).getLast? ahead := by simp
    rw [onward, List.mem_cons, hnext, ih]
    constructor
    · rintro (rfl | ⟨more, rest, rfl, rfl⟩)
      · exact ⟨[], c :: ahead, rfl, by rw [List.append_nil, between]⟩
      · exact ⟨c :: more, rest, rfl, by rw [List.append_assoc, List.singleton_append]⟩
    · rintro ⟨more, rest, hahead, rfl⟩
      cases more with
      | nil =>
        obtain rfl : c :: ahead = rest := hahead
        exact Or.inl (by rw [List.append_nil, between])
      | cons d more =>
        obtain ⟨rfl, hahead'⟩ := List.cons.inj hahead
        exact Or.inr ⟨more, rest, hahead', by rw [List.append_assoc, List.singleton_append]⟩

/-- A search starts from every position of the text. -/
theorem mem_onward_iff {t : Text} {p : Cursor} : p ∈ onward 0 none t ↔ p.In t :=
  mem_onward_between []

theorem In.index_eq_zero_iff {t : Text} {p : Cursor} (h : p.In t) :
    p.index = 0 ↔ p.before = none := by
  obtain ⟨before, ahead, -, rfl⟩ := h
  rw [between, List.length_eq_zero_iff, List.getLast?_eq_none_iff]

theorem In.index_eq_length_iff {t : Text} {p : Cursor} (h : p.In t) :
    p.index = t.length ↔ p.rest = [] := by
  obtain ⟨before, ahead, rfl, rfl⟩ := h
  rw [between, List.length_append, Nat.left_eq_add, List.length_eq_zero_iff]

theorem In.advance {t : Text} {p q : Cursor} {s : CharSet} (h : p.In t)
    (hq : p.advance s = some q) : q.In t := by
  obtain ⟨before, ahead, rfl, rfl⟩ := h
  cases ahead with
  | nil => cases hq
  | cons c rest =>
    obtain ⟨-, hq⟩ := Option.ite_none_right_eq_some.1 hq
    refine ⟨before ++ [c], rest, by simp, ?_⟩
    rw [← Option.some.inj hq]
    simp [between]

end Cursor

/-- A match does not leave the text. -/
theorem Expr.Matches.in {e : Expr} {t : Text} {p q : Cursor} (h : e.Matches p q) (hp : p.In t) :
    q.In t := by
  induction e generalizing p q with
  | empty => exact h ▸ hp
  | set s => exact hp.advance h
  | anchor a => exact h.2 ▸ hp
  | seq a b iha ihb =>
    obtain ⟨m, ha, hb⟩ := h
    exact ihb hb (iha ha hp)
  | alt a b iha ihb => exact h.elim (iha · hp) (ihb · hp)
  | times a least most ih =>
    obtain ⟨n, -, -, hsteps⟩ := h
    induction n generalizing p with
    | zero => exact hsteps ▸ hp
    | succ n ihn =>
      obtain ⟨m, hm, hsteps⟩ := hsteps
      exact ihn (ih hm hp) hsteps

/-! ## The parts of a branch -/

namespace Item

theorem expr_seq_cons (item : Item) (items : List Item) :
    (seq (item :: items)).expr = items.foldl (fun e i => .seq i.expr e) item.expr := by
  cases items <;> rfl

theorem matches_foldl_seq {items : List Item} {e : Expr} {p q : Cursor} :
    (items.foldl (fun e i => .seq i.expr e) e).Matches p q ↔
      ∃ m, (seq items).expr.Matches p m ∧ e.Matches m q := by
  induction items generalizing e q with
  | nil => simp [seq, Expr.Matches]
  | cons item items ih =>
    rw [List.foldl_cons, ih, expr_seq_cons]
    simp only [ih, Expr.Matches]
    constructor
    · rintro ⟨m, hitems, m', hitem, he⟩
      exact ⟨m', ⟨m, hitems, hitem⟩, he⟩
    · rintro ⟨m', ⟨m, hitems, hitem⟩, he⟩
      exact ⟨m, hitems, m', hitem, he⟩

/-- The parts of a branch match one after the other; the last one comes first in the list. -/
theorem matches_seq_append {items items' : List Item} {p q : Cursor} :
    (seq (items ++ items')).expr.Matches p q ↔
      ∃ m, (seq items').expr.Matches p m ∧ (seq items).expr.Matches m q := by
  cases items with
  | nil => simp [seq, Expr.Matches]
  | cons item items =>
    rw [List.cons_append, expr_seq_cons, List.foldl_append, matches_foldl_seq, expr_seq_cons]

end Item

/-! ## Groups that are closed -/

/-- Behind the text a parenthesis closes the group that it is put into, and not before. -/
def Complete (t : Text) : Prop := ∃ r, ({} : Reader).run t = some r ∧ r.Closes ')'

namespace Reader

theorem finish_under (frame : Frame) (r : Reader) : (r.under frame).finish = none := by
  unfold finish
  rw [mode_under]
  cases hm : r.mode <;> simp [hm, push, goto]

end Reader

open Reader

/-- **A group that is opened is closed**, behind a text that is complete by itself. -/
theorem exists_complete (frame : Frame) {t : Text} {item : Item}
    (h : ((({} : Reader).under frame).run t).bind finish = some item) :
    ∃ inner rest, t = inner ++ ')' :: rest ∧ Complete inner := by
  rcases run_under frame {} t with hrun | ⟨inner, rest, r, hsplit, hinner, hcloses⟩
  · rw [hrun, Option.bind_map] at h
    obtain ⟨r, -, hfinish⟩ := Option.bind_eq_some_iff.1 h
    rw [Function.comp_apply, finish_under] at hfinish
    cases hfinish
  · exact ⟨inner, rest, hsplit, r, hinner, hcloses⟩

/-- A complete text is an expression, and behind a parenthesis the group around it is one part. -/
theorem Complete.read {t : Text} (h : Complete t) :
    ∃ (r : Reader) (item : Item), (({} : Reader).run t).bind finish = some item ∧
      ∀ frame tail, (({} : Reader).under frame).run (t ++ ')' :: tail) =
        (r.behindGroup frame item).run tail := by
  obtain ⟨r, hrun, hcloses⟩ := h
  obtain ⟨-, item, hfinish, -⟩ := hcloses.finish ⟨{}, [], []⟩
  refine ⟨r, item, by rw [hrun, Option.bind_some, hfinish], fun frame tail => ?_⟩
  obtain ⟨-, item', hfinish', hstep⟩ := hcloses.finish frame
  obtain rfl : item' = item := Option.some.inj (hfinish'.symm.trans hfinish)
  have hunder : (({} : Reader).under frame).run t = some (r.under frame) := by
    rcases run_under frame {} t with hunder | ⟨before, after, r', rfl, hbefore, hcloses'⟩
    · rw [hunder, hrun, Option.map_some]
    · rw [run_of_closes hbefore hcloses'] at hrun
      cases hrun
  rw [run_append, hunder, Option.bind_some, run, hstep, Option.bind_some]

/-! ## What the engine reads and finds -/

namespace Standard

/-- The expression matches the text from one position to the other. -/
def Matches (item : Item) (t : Text) (i j : Nat) : Prop :=
  ∃ p q : Cursor, p.In t ∧ p.index = i ∧ q.index = j ∧ item.expr.Matches p q

/-- The text is read as these parts, whatever parts were read before it. -/
def ReadsAs (t : Text) (items : List Item) : Prop :=
  ∃ names brackets, ∀ before, ({ items := before } : Reader).run t =
    some { items := items ++ before, names := names, brackets := brackets }

def startItem : Item := { expr := .anchor .textStart }

def stopItem : Item := { expr := .anchor .textEnd }

variable {t : Text} {items : List Item}

namespace ReadsAs

theorem read? (h : ReadsAs t items) : Standard.read? t = some (Item.seq items) := by
  obtain ⟨names, brackets, hrun⟩ := h
  rw [Standard.read?, hrun [], List.append_nil]
  rfl

theorem start (h : ReadsAs t items) : ReadsAs ('^' :: t) (items ++ [startItem]) := by
  obtain ⟨names, brackets, hrun⟩ := h
  refine ⟨names, brackets, fun before => ?_⟩
  rw [List.append_assoc]
  exact hrun (startItem :: before)

theorem stop (h : ReadsAs t items) : ReadsAs (t ++ ['$']) (stopItem :: items) := by
  obtain ⟨names, brackets, hrun⟩ := h
  refine ⟨names, brackets, fun before => ?_⟩
  rw [run_append, hrun before]
  rfl

end ReadsAs

/-- A complete text is read, and the group around it as one part that matches the same. -/
theorem read?_of_complete (h : Complete t) : ∃ item, read? t = some item ∧
    read? (group t) = some { expr := item.expr, nesting := item.nesting + 1 } := by
  obtain ⟨r, item, hread, hrun⟩ := h.read
  exact ⟨item, hread, congrArg (·.bind finish) (hrun ⟨{}, [], []⟩ [])⟩

/-- Where no group is open, none can be closed. -/
theorem read?_of_unopened (h : Complete t) (after : Text) : read? (t ++ ')' :: after) = none := by
  obtain ⟨r, hrun, hcloses⟩ := h
  rw [read?, run_of_closes hrun hcloses]
  rfl

theorem complete_of_group {e g : Item} (ht : read? t = some e) (hg : read? (group t) = some g) :
    Complete t := by
  have hopen : read? (group t) =
    ((({} : Reader).under ⟨{}, [], []⟩).run (t ++ [')'])).bind finish := rfl
  rw [hopen] at hg
  obtain ⟨inner, rest, hsplit, hinner⟩ := exists_complete _ hg
  rcases Text.eq_or_split_of_append_cons List.not_mem_nil hsplit with rfl | ⟨after, rfl⟩
  · exact hinner
  · rw [read?_of_unopened hinner] at ht
    cases ht

/-- **A group, with or without anchors around it, is read as a list of parts.** -/
theorem reads_grouped (h : Grouped t) : ∃ items, ReadsAs t items := by
  induction h with
  | @group t ht hg =>
    obtain ⟨e, he⟩ := ht
    obtain ⟨g, hg⟩ := hg
    obtain ⟨r, item, -, hrun⟩ := (complete_of_group he hg).read
    refine ⟨[{ expr := item.expr, nesting := item.nesting + 1 }], r.names, r.brackets, ?_⟩
    exact fun before => hrun ⟨{}, [], before⟩ []
  | start _ ih =>
    obtain ⟨items, hitems⟩ := ih
    exact ⟨_, hitems.start⟩
  | stop _ ih =>
    obtain ⟨items, hitems⟩ := ih
    exact ⟨_, hitems.stop⟩

/-- **The standard engine does as documented.** -/
theorem documented : Engine.Documented Matches where
  search_iff e t := by
    rw [show Engine.search e t = e.expr.search t from rfl, Expr.search_iff]
    constructor
    · rintro ⟨p, hp, q, h⟩
      exact ⟨_, _, p, q, Cursor.mem_onward_iff.1 hp, rfl, rfl, h⟩
    · rintro ⟨_, _, p, q, hp, -, -, h⟩
      exact ⟨p, Cursor.mem_onward_iff.2 hp, q, h⟩
  group_iff {t e g} ht hg u i j := by
    obtain ⟨item, hread, hgroup⟩ := read?_of_complete (complete_of_group ht hg)
    obtain rfl : item = e := Option.some.inj (hread.symm.trans ht)
    obtain rfl := Option.some.inj (hgroup.symm.trans hg)
    exact Iff.rfl
  start_iff {t e} h he := by
    obtain ⟨items, hitems⟩ := reads_grouped h
    obtain rfl : Item.seq items = e := Option.some.inj (hitems.read?.symm.trans he)
    refine ⟨_, hitems.start.read?, fun u i j => ?_⟩
    have hstart (p m : Cursor) :
        (Item.seq [startItem]).expr.Matches p m ↔ p.before = none ∧ p = m := by
      simp [Item.seq, startItem, Expr.Matches, Anchor.holds]
    simp only [Matches, Item.matches_seq_append, hstart]
    constructor
    · rintro ⟨p, q, hp, rfl, rfl, _, ⟨hbefore, rfl⟩, h⟩
      exact ⟨hp.index_eq_zero_iff.2 hbefore, p, q, hp, rfl, rfl, h⟩
    · rintro ⟨hi, p, q, hp, rfl, rfl, h⟩
      exact ⟨p, q, hp, rfl, rfl, p, ⟨hp.index_eq_zero_iff.1 hi, rfl⟩, h⟩
  stop_iff {t e} h he := by
    obtain ⟨items, hitems⟩ := reads_grouped h
    obtain rfl : Item.seq items = e := Option.some.inj (hitems.read?.symm.trans he)
    refine ⟨_, hitems.stop.read?, fun u i j => ?_⟩
    have hstop (m q : Cursor) : (Item.seq [stopItem]).expr.Matches m q ↔ m.rest = [] ∧ m = q := by
      simp [Item.seq, stopItem, Expr.Matches, Anchor.holds]
    rw [← List.singleton_append]
    simp only [Matches, Item.matches_seq_append, hstop]
    constructor
    · rintro ⟨p, q, hp, rfl, rfl, _, h, hrest, rfl⟩
      exact ⟨⟨p, _, hp, rfl, rfl, h⟩, (h.in hp).index_eq_length_iff.2 hrest⟩
    · rintro ⟨⟨p, q, hp, rfl, rfl, h⟩, hj⟩
      exact ⟨p, q, hp, rfl, rfl, q, h, (h.in hp).index_eq_length_iff.1 hj, rfl⟩
  closed {t} h := by
    obtain ⟨e, he⟩ := h
    obtain ⟨inner, rest, rfl, hinner⟩ :=
      exists_complete ⟨{}, [], [startItem]⟩ (show _ = some e from he)
    obtain ⟨item, hread, hgroup⟩ := read?_of_complete hinner
    exact ⟨inner, rest, rfl, ⟨item, hread⟩, _, hgroup⟩
  unopened {before after} h := by
    obtain ⟨e, he⟩ := h
    obtain ⟨inner, rest, hsplit, hinner⟩ :=
      exists_complete ⟨{}, [], []⟩ (show _ = some e from he)
    have heq : before ++ ')' :: after = inner ++ ')' :: (rest ++ after) := by
      have happend := congrArg (· ++ after) hsplit
      simpa using happend
    rintro ⟨e', he'⟩
    rw [heq] at he'
    cases (read?_of_unopened hinner _).symm.trans he'

end Standard

end Routing.Regex
