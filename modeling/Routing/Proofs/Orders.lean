import Mathlib.Data.List.Perm.Basic
import Routing.Proofs.Direct
import Routing.Proofs.Refusing

/-!
# The order of registrations

Whether registrations are taken is told by each of them and by each two of them, so it does not
matter in which order they are made. Neither does it matter to the trees, but for wildcards with an
expression, which are tried in the order in which they came.

* `Segment.eq_or_before` — the order of all branches but those with an expression.
* `Forest.MadeOf.root_eq_of_perm` — the trees that entries make in another order.
* `Router.handleAll_perm` — registrations that are made in another order.
-/

namespace Routing

open Segment (Before)

namespace Segment

/-- A wildcard with an expression. -/
def isRegex : Segment → Bool
  | literal _ | wildcard _ => false
  | regex _ _ => true

/-- Of two branches beside each other one is put before the other, unless both have an
expression. -/
theorem eq_or_before {s t : Segment} (h : ¬ s.Clashes t) (hs : s.isRegex = false) :
    s = t ∨ Before s t ∨ Before t s := by
  cases s with
  | literal a =>
    cases t with
    | literal b =>
      by_cases hba : b < a
      · exact Or.inr (Or.inl hba)
      · by_cases hab : a < b
        · exact Or.inr (Or.inr hab)
        · have hsame : a = b := List.le_antisymm (List.not_lt.1 hba) (List.not_lt.1 hab)
          exact Or.inl (by rw [hsame])
    | regex name raw => exact Or.inr (Or.inl trivial)
    | wildcard name => exact Or.inr (Or.inl trivial)
  | regex name raw => cases hs
  | wildcard name =>
    cases t with
    | literal b => exact Or.inr (Or.inr trivial)
    | regex name' raw => exact Or.inr (Or.inr trivial)
    | wildcard name' =>
      have hsame : name = name' := by simpa [Clashes] using h
      exact Or.inl (by rw [hsame])

end Segment

/-! ## Trees made in another order -/

namespace Entry

/-- The entry has a wildcard with an expression on its way. -/
def isRegex (e : Entry) : Bool := e.segments.any Segment.isRegex

theorem isRegex_of_next? {e : Entry} {m : Method} {position : List Segment} {s : Segment}
    (h : e.next? m position = some s) (hs : s.isRegex = true) : e.isRegex = true := by
  obtain ⟨-, hnext⟩ := next?_eq_some_iff.1 h
  have hmem : s ∈ e.segments := (Routing.next?_eq_some_iff.1 hnext).subset (by simp)
  exact List.any_eq_true.2 ⟨s, hmem, hs⟩

/-- Branches with an expression come from entries that have one. -/
theorem filter_filterMap_next? (es : List Entry) (m : Method) (position : List Segment) :
    (es.filterMap (·.next? m position)).filter Segment.isRegex =
      ((es.filter isRegex).filterMap (·.next? m position)).filter Segment.isRegex := by
  rw [List.filter_filterMap, List.filter_filterMap, List.filterMap_filter]
  apply List.filterMap_congr
  intro e _
  by_cases he : e.isRegex = true
  · rw [if_pos he]
  · rw [if_neg he]
    cases hnext : e.next? m position with
    | none => rfl
    | some s =>
      have hs : ¬ s.isRegex = true := fun hs => he (isRegex_of_next? hnext hs)
      simp [hs]

theorem Agrees.symm {options : Options} {e e' : Entry} (h : e.Agrees options e') :
    e'.Agrees options e := by
  intro hm
  obtain ⟨hclash, hfresh⟩ := h hm.symm
  exact ⟨fun hc => hclash hc.symm, fun hd hs => hfresh hd hs.symm⟩

end Entry

section

variable [Regex.Engine]

namespace Forest

variable {f f' : Forest} {es es' : List Entry}

theorem MadeOf.route?_eq_of_perm (h : f.MadeOf es) (h' : f'.MadeOf es') (hperm : es'.Perm es) :
    f'.route? = f.route? := by
  funext m segments
  apply Option.ext
  intro route
  have hmem := h.sound.mem_entries_iff (e := ⟨m, segments, route⟩)
  have hmem' := h'.sound.mem_entries_iff (e := ⟨m, segments, route⟩)
  rw [← hmem, ← hmem', h.mem, h'.mem, hperm.mem_iff]

theorem MadeOf.methods_perm (h : f.MadeOf es) (h' : f'.MadeOf es') (hperm : es'.Perm es) :
    f'.methods.Perm f.methods := by
  rw [List.perm_ext_iff_of_nodup h'.sound.methods h.sound.methods]
  intro m
  rw [h.methods, h'.methods, mem_seatAll, mem_seatAll, (hperm.map Entry.method).mem_iff]

/-- **The order of entries makes no difference to the trees** as long as those with an expression
stay in theirs. -/
theorem MadeOf.root_eq_of_perm (h : f.MadeOf es) (h' : f'.MadeOf es') (hperm : es'.Perm es)
    (hregex : es'.filter Entry.isRegex = es.filter Entry.isRegex) (m : Method) :
    f'.root m = f.root m := by
  apply (h'.sound.root m).ext_routes (h.sound.root m)
  · rw [h'.sound.slots_root, h.sound.slots_root]
  · intro position
    have hfilter : (es'.filterMap (·.next? m position)).filter Segment.isRegex =
        (es.filterMap (·.next? m position)).filter Segment.isRegex := by
      rw [Entry.filter_filterMap_next?, Entry.filter_filterMap_next? es, hregex]
    rw [h.branchesAt, h'.branchesAt]
    apply seatAll_congr_of_perm Before Segment.isRegex (hperm.filterMap _) hfilter
    intro s hs hplain t ht
    have hbranch {u : Segment} (hu : u ∈ es'.filterMap (·.next? m position)) :
        u ∈ (f'.root m).branchesAt position := by
      rw [h'.branchesAt, mem_seatAll]
      exact Or.inr hu
    have hclash := Segment.not_clashes_of_mem ((h'.sound.root m).ordered position) (hbranch hs)
      (hbranch ht)
    exact Segment.eq_or_before hclash hplain
  · intro position
    rw [← Forest.route?_eq, ← Forest.route?_eq, h.route?_eq_of_perm h' hperm]

end Forest

/-! ## What is allowed -/

/-- The text that lists methods. -/
def methodList (ms : List Method) : Text := Text.join allowSeparator (ms.map Method.name)

namespace Sealed

/-- The methods that are listed for a decoded path, if any are. -/
def allowedMethods (s : Sealed) (m : Method) (path : Text) : Option (List Method) :=
  let others := s.otherMethods m path
  if (if path = ['*'] then s.forest.roots.isEmpty else others.isEmpty) then none
  else some (others ++ [Method.options])

theorem allowedAt_eq (s : Sealed) (m : Method) (path : Text) :
    s.allowedAt m path = (s.allowedMethods m path).map methodList := by
  simp only [allowedMethods, apply_ite (Option.map methodList)]
  rfl

/-- Where the same routes are found, the order of the methods is all that the lists may differ
in. -/
theorem allowedMethods_perm {s s' : Sealed} (hmethods : s'.forest.methods.Perm s.forest.methods)
    (harrive : ∀ m path, s'.arrive? m path = s.arrive? m path) (m : Method) (path : Text) :
    Option.Rel List.Perm (s'.allowedMethods m path) (s.allowedMethods m path) := by
  have hothers : (s'.otherMethods m path).Perm (s.otherMethods m path) := by
    unfold otherMethods
    split
    · exact hmethods.filter _
    · simp only [harrive]
      exact hmethods.filter _
  have hnone : s'.forest.roots.isEmpty = s.forest.roots.isEmpty := by
    have hempty := hmethods.isEmpty_eq
    rwa [Forest.methods, Forest.methods, List.isEmpty_map, List.isEmpty_map] at hempty
  simp only [allowedMethods, hnone, hothers.isEmpty_eq]
  generalize (if path = ['*'] then s.forest.roots.isEmpty else (s.otherMethods m path).isEmpty) = b
  cases b with
  | true => exact .none
  | false => exact .some (hothers.append_right [Method.options])

end Sealed

/-! ## Registrations in another order -/

/-- The pattern has a wildcard with an expression. -/
def Registration.isRegex (q : Registration) : Bool :=
  match Pattern.split q.pattern with
  | .ok segments => segments.any Segment.isRegex
  | .error _ => false

namespace Router

theorem Makes.isRegex_eq {r : Router} {q : Registration} {e : Entry} (h : r.Makes q e) :
    q.isRegex = e.isRegex := by
  simp only [Registration.isRegex, h.split, Entry.isRegex]

theorem Makes.unique {r : Router} {q : Registration} {e e' : Entry} (h : r.Makes q e)
    (h' : r.Makes q e') : e = e' := by
  obtain ⟨m, segments, route⟩ := e
  obtain ⟨m', segments', route'⟩ := e'
  obtain rfl : segments = segments' := Except.ok.inj (h.split.symm.trans h'.split)
  obtain rfl : m = m' := h.method.trans h'.method.symm
  obtain rfl : route = route' := h.route.trans h'.route.symm
  rfl

/-- Entries stand in the order of the registrations that make them. -/
theorem filter_isRegex_of_makes {r : Router} {qs qs' : List Registration} {es es' : List Entry}
    (h : List.Forall₂ r.Makes qs es) (h' : List.Forall₂ r.Makes qs' es')
    (hregex : qs'.filter Registration.isRegex = qs.filter Registration.isRegex) :
    es'.filter Entry.isRegex = es.filter Entry.isRegex := by
  have hkeep {qs : List Registration} {es : List Entry} (h : List.Forall₂ r.Makes qs es) :
      List.Forall₂ r.Makes (qs.filter Registration.isRegex) (es.filter Entry.isRegex) :=
    List.rel_filter (fun _ _ hq => iff_of_eq (congrArg (· = true) hq.isRegex_eq)) h
  have hsame := hkeep h'
  rw [hregex] at hsame
  exact List.right_unique_forall₂' (fun _ _ _ hq hq' => hq.unique hq') hsame (hkeep h)

/-- **Registrations that are all made can be made in any order.** -/
theorem exists_handleAll_of_perm {options : Options} {chain : Chain} {qs qs' : List Registration}
    (hperm : qs'.Perm qs) {r : Router}
    (h : (Router.new options chain).handleAll qs = ⟨.ok (), r⟩) :
    ∃ r', (Router.new options chain).handleAll qs' = ⟨.ok (), r'⟩ := by
  have hempty : (Router.new options chain).forest.Sound := Forest.sound_empty
  obtain ⟨es, hes⟩ : ∃ es, List.Forall₂ (Router.new options chain).Makes qs es :=
    exists_makes_of_handleAll (by rw [h])
  obtain ⟨es', hes', hperm'⟩ := List.perm_comp_forall₂ hperm hes
  have hproper := proper_of_makes hes
  rw [handleAll_eq_registerAll hes] at h
  obtain ⟨hfits, hagree⟩ := fits_of_registerAll hempty hproper (by rw [h])
  have hproper' : ∀ e ∈ es', ∀ s ∈ e.segments, s.Proper :=
    fun e he => hproper e (hperm'.mem_iff.1 he)
  have hfits' : ∀ e ∈ es', (Router.new options chain).Fits e :=
    fun e he => hfits e (hperm'.mem_iff.1 he)
  have hagree' : es'.Pairwise (Entry.Agrees options) :=
    (hperm'.pairwise_iff fun ha => ha.symm).2 hagree
  obtain ⟨f, hall, -⟩ := registerAll_of_fits hempty hproper' hfits' hagree'
  exact ⟨_, (handleAll_eq_registerAll hes').trans hall⟩

/-- **The order of registrations makes no difference**, but for those with an expression. If all
are made in one order then all are made in every other; and if those with an expression stay in
theirs, then the routers find the same routes with the same parameters, and list the same methods
as allowed. -/
theorem handleAll_perm {options : Options} (hreject : options.duplicateRoutes = .reject)
    {chain : Chain} {qs qs' : List Registration} (hperm : qs'.Perm qs) {r : Router}
    (h : (Router.new options chain).handleAll qs = ⟨.ok (), r⟩) :
    ∃ r', (Router.new options chain).handleAll qs' = ⟨.ok (), r'⟩ ∧
      (qs'.filter Registration.isRegex = qs.filter Registration.isRegex →
        r'.table = r.table ∧ ∀ m path,
          r'.seal.foundAt? m path = r.seal.foundAt? m path ∧
          (r'.seal.find m path).answer = (r.seal.find m path).answer ∧
          ∃ ms ms', Option.Rel List.Perm ms' ms ∧
            r.seal.allowed m path = ms.map methodList ∧
            r'.seal.allowed m path = ms'.map methodList) := by
  obtain ⟨r', h'⟩ := exists_handleAll_of_perm hperm h
  refine ⟨r', h', fun hregex => ?_⟩
  obtain ⟨es, hes, -, -, -, hmade⟩ := madeOf_of_handleAll hreject h
  obtain ⟨es', hes', -, -, -, hmade'⟩ := madeOf_of_handleAll hreject h'
  obtain ⟨es'', hes'', hperm'⟩ := List.perm_comp_forall₂ hperm hes
  obtain rfl : es'' = es' :=
    List.right_unique_forall₂' (fun _ _ _ hq hq' => hq.unique hq') hes'' hes'
  have hentries := filter_isRegex_of_makes hes hes' hregex
  have harrive : ∀ m path, r'.seal.arrive? m path = r.seal.arrive? m path :=
    Sealed.arrive?_congr fun m => hmade.root_eq_of_perm hmade' hperm' hentries m
  refine ⟨hmade.route?_eq_of_perm hmade' hperm', fun m path => ⟨?_, ?_, ?_⟩⟩
  · rw [Sealed.foundAt?, harrive, Sealed.foundAt?]
  · exact Sealed.answer_find_congr (harrive m (Text.Percent.text path))
  · have hmethods : r'.seal.forest.methods.Perm r.seal.forest.methods :=
      hmade.methods_perm hmade' hperm'
    exact ⟨_, _, Sealed.allowedMethods_perm hmethods harrive m (Text.Percent.text path),
      r.seal.allowedAt_eq m _, r'.seal.allowedAt_eq m _⟩

end Router

end

namespace Router

open Regex.Standard

/-- Three registrations, one of them with an expression, turned around. -/
theorem handleAll_perm_sample :
    let digit := ['/', '{', 'n', ':', '[', '0', '-', '9', ']', '}']
    let qs : List Registration :=
      [⟨.get, ['/', 'a'], silent, []⟩, ⟨.get, digit, silent, []⟩, ⟨.post, ['/', 'b'], silent, []⟩]
    let r := ((Router.new {}).handleAll qs).router
    (Router.new {}).handleAll qs = ⟨.ok (), r⟩ ∧
      qs.reverse.filter Registration.isRegex = qs.filter Registration.isRegex ∧
      ∃ r', (Router.new {}).handleAll qs.reverse = ⟨.ok (), r'⟩ ∧ r'.table = r.table ∧
        (r'.seal.find .get ['/', '7']).answer = (r.seal.find .get ['/', '7']).answer := by
  intro digit qs r
  have hok : ((Router.new {}).handleAll qs).answer = .ok () := by decide +kernel
  have hqs : (Router.new {}).handleAll qs = ⟨.ok (), r⟩ := by rw [← hok]
  have hregex : qs.reverse.filter Registration.isRegex = qs.filter Registration.isRegex := rfl
  obtain ⟨r', hqs', hsame⟩ := handleAll_perm rfl qs.reverse_perm hqs
  obtain ⟨htable, hfind⟩ := hsame hregex
  exact ⟨hqs, hregex, r', hqs', htable, (hfind .get ['/', '7']).2.1⟩

end Router

end Routing
