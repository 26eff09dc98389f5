import Routing.Regex.Standard

/-!
# Expressions inside a group

A reader that is inside an open group reads as it does outside, with the group around what it
leaves. Nothing that it does looks at the groups around the innermost one, up to the parenthesis
that closes the group it was put into; outside, that parenthesis is refused.

* `Reader.under` — the reader inside one more group.
* `Reader.Closes` — the reader is not in a group of its own, and closes the one around it.
* `Reader.step_under`, `Reader.run_under` — a step, and a whole text.
-/

namespace Routing.Regex

namespace Reader

/-- The reader inside one more group, which was opened before all others. -/
def under (frame : Frame) (r : Reader) : Reader := { r with frames := r.frames ++ [frame] }

variable {frame : Frame} {r : Reader}

@[simp] theorem frames_under : (r.under frame).frames = r.frames ++ [frame] := rfl
@[simp] theorem branches_under : (r.under frame).branches = r.branches := rfl
@[simp] theorem items_under : (r.under frame).items = r.items := rfl
@[simp] theorem flags_under : (r.under frame).flags = r.flags := rfl
@[simp] theorem names_under : (r.under frame).names = r.names := rfl
@[simp] theorem brackets_under : (r.under frame).brackets = r.brackets := rfl
@[simp] theorem mode_under : (r.under frame).mode = r.mode := rfl
@[simp] theorem skip_under : (r.under frame).skip = r.skip := rfl
@[simp] theorem canRepeat_under : (r.under frame).canRepeat = r.canRepeat := rfl

@[simp] theorem goto_under (mode : Mode) : (r.under frame).goto mode = (r.goto mode).under frame :=
  rfl

@[simp] theorem stay_under (mode : Mode) : (r.under frame).stay mode = (r.stay mode).under frame :=
  rfl

@[simp] theorem push_under (item : Item) : (r.under frame).push item = (r.push item).under frame :=
  rfl

@[simp] theorem openGroup_under (flags : Flags) :
    (r.under frame).openGroup flags = (r.openGroup flags).under frame := rfl

@[simp] theorem closeBranch_under : (r.under frame).closeBranch = r.closeBranch.under frame := rfl

@[simp] theorem openBracket_under : (r.under frame).openBracket = r.openBracket.under frame := rfl

@[simp] theorem updateBracket_under (change : Bracket → Bracket) :
    (r.under frame).updateBracket change = (r.updateBracket change).under frame := by
  unfold updateBracket
  rw [brackets_under]
  cases r.brackets <;> rfl

@[simp] theorem addMember_under (v : Value) :
    (r.under frame).addMember v = (r.addMember v).under frame := updateBracket_under _

@[simp] theorem putOperator_under (op : SetOperator) :
    (r.under frame).putOperator op = (r.putOperator op).under frame := by
  simp [putOperator]

@[simp] theorem addPrimitive_under (p : Primitive) :
    (r.under frame).addPrimitive p = (r.addPrimitive p).map (under frame) := by
  cases p with
  | char c byte => by_cases h : bracketChar r.flags c = true <;> simp [addPrimitive, h]
  | set s => simp [addPrimitive]
  | anchor a => rfl

@[simp] theorem deliver_under (purpose : Purpose) (p : Primitive) :
    (r.under frame).deliver purpose p = (r.deliver purpose p).map (under frame) := by
  cases purpose with
  | part => cases p <;> simp [deliver, Function.comp_def]
  | member => cases p <;> simp [deliver]
  | rangeEnd first =>
    cases first <;> cases p <;>
      simp only [deliver, Option.map_none, flags_under, apply_ite (Option.map (under frame)),
        addMember_under, goto_under, Option.map_some]

@[simp] theorem repeatLast_under (least : Nat) (most : Option Nat) :
    (r.under frame).repeatLast least most = (r.repeatLast least most).map (under frame) := by
  unfold repeatLast
  rw [items_under]
  cases r.items with
  | nil => rfl
  | cons item items => by_cases h : item.repeatable = true <;> simp [h, under]

theorem pass_under {c : Char} {take take' : Option Reader} (h : take' = take.map (under frame)) :
    (r.under frame).pass c take' = (r.pass c take).map (under frame) := by
  unfold pass
  rw [skip_under, h]
  cases r.skip with
  | nothing => rfl
  | blanks =>
    simp only [apply_ite (Option.map (under frame)), Option.map_some]
    rfl
  | comment =>
    simp only [Option.map_some, apply_ite (under frame)]
    rfl

/-! ## Parts, groups and repetitions -/

@[simp] theorem takeFlags_under (letters : Text) (negated dangling : Bool) (flags : Flags)
    (c : Char) :
    (r.under frame).takeFlags letters negated dangling flags c =
      (r.takeFlags letters negated dangling flags c).map (under frame) := by
  simp only [takeFlags, apply_ite (Option.map (under frame)), Option.map_map, Option.map_some,
    Option.map_none]
  rfl

@[simp] theorem takeName_under (name : Text) (c : Char) :
    (r.under frame).takeName name c = (r.takeName name c).map (under frame) := by
  simp only [takeName, apply_ite (Option.map (under frame)), Option.map_some, Option.map_none]
  rfl

@[simp] theorem takeCount_under (least : Option Nat) (digits : Text) (place : CountPlace)
    (c : Char) :
    (r.under frame).takeCount least digits place c =
      (r.takeCount least digits place c).map (under frame) := by
  unfold takeCount
  cases place <;> cases least <;> cases number? digits <;>
    simp only [repeatLast_under, apply_ite (Option.map (under frame)), Option.map_map,
      Option.map_some, Option.map_none] <;> rfl

/-! ## Escapes -/

@[simp] theorem letterClass_under (purpose : Purpose) (k : LetterClass) (negated : Bool) :
    (r.under frame).letterClass purpose k negated =
      (r.letterClass purpose k negated).map (under frame) := by
  simp only [letterClass, deliver_under, apply_ite (Option.map (under frame)), Option.map_none]
  rfl

@[simp] theorem takeEscape_under (purpose : Purpose) (c : Char) :
    (r.under frame).takeEscape purpose c = (r.takeEscape purpose c).map (under frame) := by
  unfold takeEscape
  simp only [deliver_under, letterClass_under, apply_ite (Option.map (under frame))]
  split
  · rfl
  · split <;> first | rfl | cases purpose <;> rfl

@[simp] theorem takeHexDigits_under (purpose : Purpose) (digits left value : Nat) (c : Char) :
    (r.under frame).takeHexDigits purpose digits left value c =
      (r.takeHexDigits purpose digits left value c).map (under frame) := by
  unfold takeHexDigits
  cases Text.hexDigit? c with
  | none => rfl
  | some d =>
    cases hn : charOf? (16 * value + d) <;>
      simp [hn, apply_ite (Option.map (under frame))]

@[simp] theorem takeHexBrace_under (purpose : Purpose) (value : Option Nat) (c : Char) :
    (r.under frame).takeHexBrace purpose value c =
      (r.takeHexBrace purpose value c).map (under frame) := by
  unfold takeHexBrace
  split
  · cases value with
    | none => rfl
    | some n => cases hn : charOf? n <;> simp [hn]
  · cases Text.hexDigit? c <;> simp [apply_ite (Option.map (under frame))]

@[simp] theorem property_under (purpose : Purpose) (negated : Bool) (description : Text) :
    (r.under frame).property purpose negated description =
      (r.property purpose negated description).map (under frame) := by
  unfold property
  cases Classes.property? description <;>
    simp [apply_ite (Option.map (under frame))]

@[simp] theorem takeProperty_under (purpose : Purpose) (negated : Bool) (c : Char) :
    (r.under frame).takeProperty purpose negated c =
      (r.takeProperty purpose negated c).map (under frame) := by
  unfold takeProperty
  cases Classes.named? [c] <;>
    simp [apply_ite (Option.map (under frame))]

@[simp] theorem takeBoundaryOpen_under (c : Char) :
    (r.under frame).takeBoundaryOpen c = (r.takeBoundaryOpen c).map (under frame) := by
  simp only [takeBoundaryOpen, push_under, goto_under, takeCount_under, flags_under,
    apply_ite (Option.map (under frame)), Option.map_some]

/-! ## Brackets -/

@[simp] theorem closeBracket_under :
    (r.under frame).closeBracket = r.closeBracket.map (under frame) := by
  unfold closeBracket
  rw [brackets_under]
  rcases r.brackets with _ | ⟨b, _ | ⟨outer, brackets⟩⟩
  · rfl
  · simp only [apply_ite (Option.map (under frame)), Option.map_none, Option.map_some]
    rfl
  · simp only [apply_ite (Option.map (under frame)), Option.map_none, Option.map_some]
    rfl

@[simp] theorem takeMember_under (c : Char) :
    (r.under frame).takeMember c = (r.takeMember c).map (under frame) := by
  unfold takeMember
  split <;> simp

@[simp] theorem takeBehind_under (first : Primitive) (c : Char) :
    (r.under frame).takeBehind first c = (r.takeBehind first c).map (under frame) := by
  unfold takeBehind
  rw [addPrimitive_under]
  cases r.addPrimitive first <;> simp [apply_ite (Option.map (under frame))]

@[simp] theorem enterBehind_under (first : Primitive) (c : Char) :
    (r.under frame).enterBehind first c = (r.enterBehind first c).map (under frame) :=
  pass_under (r := r.goto (.behind first)) (by rw [goto_under, takeBehind_under])

@[simp] theorem takeTwin_under (first c : Char) :
    (r.under frame).takeTwin first c = (r.takeTwin first c).map (under frame) := by
  have hput : (r.under frame).putOperator = under frame ∘ r.putOperator := funext putOperator_under
  simp only [takeTwin, enterBehind_under, apply_ite (Option.map (under frame)), Option.map_map, hput]

@[simp] theorem takeRangeEnd_under (first : Primitive) (c : Char) :
    (r.under frame).takeRangeEnd first c = (r.takeRangeEnd first c).map (under frame) := by
  simp only [takeRangeEnd, stay_under, deliver_under, apply_ite (Option.map (under frame)),
    Option.map_some]

@[simp] theorem takeHyphen_under (first : Primitive) (gap : Gap) (c : Char) :
    (r.under frame).takeHyphen first gap c = (r.takeHyphen first gap c).map (under frame) := by
  unfold takeHyphen
  rw [flags_under, addPrimitive_under]
  by_cases hspace : (r.flags.verbose && Unicode.Property.isSpace c) = true
  · rw [if_pos hspace, if_pos hspace]
    rfl
  rw [if_neg hspace, if_neg hspace]
  by_cases hhash : (r.flags.verbose && c == '#' && (gap = .nothing || gap = .blanks)) = true
  · rw [if_pos hhash, if_pos hhash]
    rfl
  rw [if_neg hhash, if_neg hhash]
  by_cases hclose : c = ']' ∨ c = '-'
  · rw [if_pos hclose, if_pos hclose]
    cases r.addPrimitive first with
    | none => rfl
    | some r' =>
      cases gap with
      | nothing =>
        cases hp : r'.addPrimitive (.char '-' false) <;>
          simp [hp, apply_ite (Option.map (under frame))]
      | comment => rfl
      | blanks | commentLine => simp
  · rw [if_neg hclose, if_neg hclose]
    cases gap <;> simp [apply_ite (Option.map (under frame))] <;> rfl

@[simp] theorem takeBracketOpen_under (opening : Opening) (c : Char) :
    (r.under frame).takeBracketOpen opening c =
      (r.takeBracketOpen opening c).map (under frame) := by
  unfold takeBracketOpen
  split <;> simp

@[simp] theorem takePlain_under (text : Text) (c : Char) :
    (r.under frame).takePlain text c = (r.takePlain text c).map (under frame) := by
  have hfold (t : Text) (r : Reader) :
      t.foldl (fun r d => r.addMember { set := .single d }) (r.under frame) =
        (t.foldl (fun r d => r.addMember { set := .single d }) r).under frame := by
    induction t generalizing r with
    | nil => rfl
    | cons d t ih => rw [List.foldl_cons, List.foldl_cons, addMember_under, ih]
  unfold takePlain
  cases text.getLast? with
  | none =>
    exact pass_under (r := r.openBracket.goto (.bracketOpen .bracket)) (by
      rw [openBracket_under, goto_under, takeBracketOpen_under])
  | some last => simp only [openBracket_under, goto_under, hfold, enterBehind_under]

@[simp] theorem takePosix_under (spelling : Text) (c : Char) :
    (r.under frame).takePosix spelling c = (r.takePosix spelling c).map (under frame) := by
  unfold takePosix
  cases h : Classes.posix? (spelling ++ [c]) with
  | none => simp only [h, takePlain_under, stay_under, apply_ite (Option.map (under frame)),
      Option.map_some]
  | some named =>
    simp only [h, addMember_under, goto_under, flags_under, apply_ite (Option.map (under frame)),
      Option.map_none, Option.map_some]
    rfl

/-! ## Steps -/

theorem closeGroup_under (h : r.frames ≠ []) :
    (r.under frame).closeGroup = r.closeGroup.map (under frame) := by
  unfold closeGroup
  rw [frames_under]
  cases hf : r.frames with
  | nil => exact absurd hf h
  | cons inner frames => rfl

theorem takePart_under {c : Char} (h : c ≠ ')' ∨ r.frames ≠ []) :
    (r.under frame).takePart c = (r.takePart c).map (under frame) := by
  unfold takePart
  split
  case h_2 => exact closeGroup_under (h.resolve_left (by simp))
  all_goals simp [Function.comp_def, apply_ite (Option.map (under frame))]
  all_goals rfl

theorem enterPart_under {c : Char} (h : c ≠ ')' ∨ r.frames ≠ []) :
    (r.under frame).enterPart c = (r.enterPart c).map (under frame) :=
  pass_under (r := r.goto .part) (takePart_under (r := r.goto .part) h)

theorem takeGroup_under (c : Char) :
    (r.under frame).takeGroup c = (r.takeGroup c).map (under frame) := by
  have hopen : (r.openGroup r.flags).frames ≠ [] := List.cons_ne_nil _ _
  simp only [takeGroup, flags_under, openGroup_under, takePart_under (Or.inr hopen), stay_under,
    apply_ite (Option.map (under frame)), Option.map_some]

/-- A part of a branch may start here, or behind a repetition or a boundary that is not yet
complete. -/
def Ready (r : Reader) : Prop := r.mode = .part ∨ r.mode = .lazyMark ∨ r.mode = .boundary

/-- The parenthesis closes the group that the reader was put into. -/
structure Closes (r : Reader) (c : Char) : Prop where
  char : c = ')'
  frames : r.frames = []
  skip : r.skip ≠ .comment
  ready : r.Ready

/-- What a character does depends on the groups around only if it closes one. -/
theorem take_under {c : Char} (h : r.Ready → c ≠ ')' ∨ r.frames ≠ []) :
    (r.under frame).take c = (r.take c).map (under frame) := by
  unfold take
  rw [mode_under]
  cases hm : r.mode with
  | part => exact takePart_under (h (Or.inl hm))
  | lazyMark =>
    simp only [goto_under, enterPart_under (h (Or.inr (Or.inl hm))),
      apply_ite (Option.map (under frame)), Option.map_some]
  | boundary =>
    have hclose : c ≠ ')' ∨ (r.push { expr := .anchor (.word r.flags.unicode .boundary) }).frames ≠
        [] := h (Or.inr (Or.inr hm))
    simp only [flags_under, push_under, goto_under, enterPart_under hclose,
      apply_ite (Option.map (under frame)), Option.map_some]
  | group => exact takeGroup_under c
  | boundaryName name =>
    have hpush (edge : WordEdge) : (r.under frame).push { expr := .anchor (.word r.flags.unicode
        edge) } = (r.push { expr := .anchor (.word r.flags.unicode edge) }).under frame := rfl
    simp only [flags_under, goto_under, hpush, apply_ite (Option.map (under frame)),
      Option.map_some, Option.map_none, Option.map_map, Function.comp_def]
  | _ =>
    simp only [flags_under, goto_under, stay_under, takeFlags_under, takeName_under,
      takeCount_under, takeEscape_under, takeHexDigits_under, takeHexBrace_under,
      takeProperty_under, property_under, takeBoundaryOpen_under, takeBracketOpen_under,
      takeMember_under, takeTwin_under, takeBehind_under, takeHyphen_under, takeRangeEnd_under,
      takePosix_under, apply_ite (Option.map (under frame)), Option.map_some, Option.map_none]

/-- **A step inside a group is the step outside of it**, unless it closes the group. -/
theorem step_under {c : Char} (h : ¬ r.Closes c) :
    (r.under frame).step c = (r.step c).map (under frame) := by
  by_cases hskip : r.skip = .comment
  · -- In a comment it does not matter what the character would do.
    simp only [step, pass, skip_under, hskip, apply_ite (under frame), Option.map_some]
    rfl
  · apply pass_under
    apply take_under
    intro hready
    by_cases hc : c = ')'
    · exact Or.inr fun hframes => h ⟨hc, hframes, hskip, hready⟩
    · exact Or.inl hc

/-! ## The end of the group -/

/-- The reader behind the parenthesis of a group, in which the item was read. -/
def behindGroup (frame : Frame) (r : Reader) (item : Item) : Reader :=
  { r with frames := [], branches := frame.branches, items := frame.items, flags := frame.flags }.push
    { expr := item.expr, nesting := item.nesting + 1 }

theorem pass_close {take : Option Reader} (h : r.skip ≠ .comment) : r.pass ')' take = take := by
  unfold pass
  cases hs : r.skip with
  | nothing => rfl
  | blanks =>
    have hspace : Unicode.Property.isSpace ')' = false := by decide
    simp [hspace]
  | comment => exact absurd hs h

theorem skip_goto_ne_comment (mode : Mode) : (r.goto mode).skip ≠ .comment := by
  simp only [goto, Flags.skip]
  split <;> simp

/-- Where no group is open, the parenthesis is refused; inside a group, it closes it. -/
theorem enterPart_close (frame : Frame) (h : r.frames = []) :
    r.enterPart ')' = none ∧
      (r.under frame).enterPart ')' = some (r.behindGroup frame r.groupItem) := by
  have hpass (r : Reader) : r.enterPart ')' = (r.goto .part).closeGroup :=
    pass_close (r.skip_goto_ne_comment .part)
  rw [hpass, hpass]
  simp only [closeGroup, goto, under, h]
  exact ⟨trivial, rfl⟩

/-- **Where a reader closes the group around it, it is done with what is inside.** -/
theorem Closes.finish {c : Char} (h : r.Closes c) (frame : Frame) :
    r.step c = none ∧ ∃ item, r.finish = some item ∧
      (r.under frame).step c = some (r.behindGroup frame item) := by
  obtain ⟨rfl, hframes, hskip, hready⟩ := h
  have hstep : r.step ')' = r.take ')' := pass_close hskip
  have hstep' : (r.under frame).step ')' = (r.under frame).take ')' := pass_close hskip
  rw [hstep, hstep']
  rcases hready with hm | hm | hm
  · have hitem : r.finish = some r.groupItem := by simp [Reader.finish, hm, hframes]
    refine ⟨?_, _, hitem, ?_⟩
    · simp [take, hm, takePart, closeGroup, hframes]
    · simp only [take, mode_under, hm, takePart, closeGroup, frames_under, hframes, List.nil_append]
      rfl
  · have hitem : r.finish = some r.groupItem := by simp [Reader.finish, hm, hframes]
    refine ⟨?_, _, hitem, ?_⟩
    · simp [take, hm, enterPart_close frame hframes]
    · simp [take, hm, enterPart_close frame hframes]
  · -- The boundary is a part of its own, once it is known that no name follows it.
    let pushed := r.push { expr := .anchor (.word r.flags.unicode .boundary) }
    obtain ⟨hnone, hsome⟩ := enterPart_close frame (r := pushed) hframes
    refine ⟨?_, pushed.groupItem, ?_, ?_⟩
    · simpa [take, hm] using hnone
    · simp only [Reader.finish, hm, push, goto, hframes]
      rfl
    · simp only [take, mode_under, hm]
      exact hsome

/-! ## Texts -/

theorem run_append (r : Reader) (s t : Text) : r.run (s ++ t) = (r.run s).bind (·.run t) := by
  induction s generalizing r with
  | nil => rfl
  | cons c s ih =>
    rw [List.cons_append, run, run]
    cases r.step c with
    | none => rfl
    | some r' => exact ih r'

/-- **Inside a group a text is read as outside of it**, up to where it closes the group. Outside,
it is refused there. -/
theorem run_under (frame : Frame) (r : Reader) (t : Text) :
    (r.under frame).run t = (r.run t).map (under frame) ∨
      ∃ before after r', t = before ++ ')' :: after ∧ r.run before = some r' ∧ r'.Closes ')' := by
  induction t generalizing r with
  | nil => exact Or.inl rfl
  | cons c t ih =>
    by_cases hc : r.Closes c
    · exact Or.inr ⟨[], t, r, by rw [hc.char]; rfl, rfl, hc.char ▸ hc⟩
    · cases hstep : r.step c with
      | none => exact Or.inl (by simp [run, step_under hc, hstep])
      | some r' =>
        rcases ih r' with hrun | ⟨before, after, r'', rfl, hrun, hcloses⟩
        · exact Or.inl (by simp [run, step_under hc, hstep, hrun])
        · exact Or.inr ⟨c :: before, after, r'', rfl, by simp [run, hstep, hrun], hcloses⟩

/-- What closes the group around it is refused outside of a group. -/
theorem run_of_closes {before after : Text} {r r' : Reader} (h : r.run before = some r')
    (hc : r'.Closes ')') : r.run (before ++ ')' :: after) = none := by
  rw [run_append, h, Option.bind_some, run, (hc.finish ⟨{}, [], []⟩).1]
  rfl

end Reader

end Routing.Regex
