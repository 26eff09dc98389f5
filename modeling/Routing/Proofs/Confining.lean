import Routing.Files.Server
import Routing.Proofs.Decoding
import Routing.Proofs.Parts

/-!
# Below the root

A file server pushes the names of a request path onto its root. A name that is pushed stands between
two slashes of the decoded path, so it never opens with one and never takes the place of the root.

* `FileServer.pushAll_eq_none_iff`, `FileServer.pushAll_of_not_refused` — the names for which a path
  is refused, and the path that the others make.
* `FileServer.parts_push` — one more name is one more part of the path.
* `FileServer.confined` — when a path is refused, and where it leads otherwise.
-/

namespace Routing.FileServer

open Text (pieces parts)

/-- Names that add nothing to a path. -/
def Idle (name : Text) : Prop := name = [] ∨ name = ['.']

instance (name : Text) : Decidable (Idle name) := inferInstanceAs (Decidable (_ ∨ _))

/-- Names for which a path is refused: a step upwards, and all with a backslash or a NUL. -/
def Refused (name : Text) : Prop := name = ['.', '.'] ∨ '\\' ∈ name ∨ '\x00' ∈ name

instance (name : Text) : Decidable (Refused name) := inferInstanceAs (Decidable (_ ∨ _ ∨ _))

/-- The names of a path that are pushed, in order. -/
def pushed (relative : Text) : List Text := (pieces '/' relative).filter (¬ Idle ·)

/-- A name for something in the directory that it is pushed onto. -/
structure Plain (name : Text) : Prop where
  ne_nil : name ≠ []
  ne_here : name ≠ ['.']
  ne_above : name ≠ ['.', '.']
  slash : '/' ∉ name
  backslash : '\\' ∉ name
  nul : '\x00' ∉ name

theorem Refused.not_idle {name : Text} (h : Refused name) : ¬ Idle name := by
  rintro (rfl | rfl) <;> exact absurd h (by decide)

theorem plain_of_mem_pushed {relative name : Text} (h : name ∈ pushed relative)
    (hrefused : ¬ Refused name) : Plain name := by
  obtain ⟨hpiece, hidle⟩ := List.mem_filter.1 h
  simp only [Idle, Refused, not_or, decide_eq_true_eq] at hidle hrefused
  obtain ⟨hnil, hhere⟩ := hidle
  obtain ⟨habove, hbackslash, hnul⟩ := hrefused
  exact ⟨hnil, hhere, habove, Text.not_mem_of_mem_pieces hpiece, hbackslash, hnul⟩

/-! ## Pushing names -/

theorem pushAll_cons (path name : Text) (names : List Text) :
    pushAll path (name :: names) =
      if Idle name then pushAll path names
      else if Refused name then none
      else pushAll (push path name) names := rfl

theorem pushAll_of_refused {names : List Text} (h : ∃ name ∈ names, Refused name) (path : Text) :
    pushAll path names = none := by
  induction names generalizing path with
  | nil => simp at h
  | cons name names ih =>
    rw [List.exists_mem_cons_iff] at h
    rw [pushAll_cons]
    by_cases hname : Refused name
    · rw [if_neg hname.not_idle, if_pos hname]
    · have hnames := ih (h.resolve_left hname)
      rw [if_neg hname]
      split
      · exact hnames path
      · exact hnames (push path name)

theorem pushAll_of_not_refused {names : List Text} (h : ∀ name ∈ names, ¬ Refused name)
    (path : Text) : pushAll path names = some ((names.filter (¬ Idle ·)).foldl push path) := by
  induction names generalizing path with
  | nil => rfl
  | cons name names ih =>
    obtain ⟨hname, hnames⟩ := List.forall_mem_cons.1 h
    rw [pushAll_cons]
    by_cases hidle : Idle name
    · rw [if_pos hidle, ih hnames, List.filter_cons_of_neg (by simpa using hidle)]
    · rw [if_neg hidle, if_neg hname, ih hnames, List.filter_cons_of_pos (by simpa using hidle),
        List.foldl_cons]

/-- **A path is refused for one of its names.** -/
theorem pushAll_eq_none_iff {path : Text} {names : List Text} :
    pushAll path names = none ↔ ∃ name ∈ names, Refused name := by
  constructor
  · intro hnone
    by_contra h
    push Not at h
    rw [pushAll_of_not_refused h] at hnone
    cases hnone
  · intro h
    exact pushAll_of_refused h path

/-- One more name does not take the place of the path, and is set off from it by one slash. -/
theorem push_cases {name : Text} (h : Plain name) (path : Text) :
    push path name = path ++ name ∧ (path = [] ∨ ∃ front, path = front ++ ['/']) ∨
      push path name = path ++ '/' :: name := by
  have hhead : name.head? ≠ some '/' := by
    intro hslash
    exact h.slash (List.mem_of_mem_head? hslash)
  rw [push, if_neg hhead]
  split
  · rename_i hpath
    refine Or.inl ⟨rfl, ?_⟩
    rcases hpath with rfl | hlast
    · exact Or.inl rfl
    · exact Or.inr (List.getLast?_eq_some_iff.1 hlast)
  · exact Or.inr (by simp)

theorem prefix_push {path name : Text} (h : Plain name) : path <+: push path name := by
  rcases push_cases h path with ⟨heq, -⟩ | heq
  · exact heq ▸ List.prefix_append path name
  · exact heq ▸ List.prefix_append path ('/' :: name)

/-- **One more name is one more part of the path.** -/
theorem parts_push {path name : Text} (h : Plain name) :
    parts (push path name) = parts path ++ [name] := by
  have hname := Text.parts_of_not_mem h.ne_nil h.slash
  rcases push_cases h path with ⟨heq, rfl | ⟨front, rfl⟩⟩ | heq
  · rw [heq, List.nil_append, hname]
    rfl
  · have hfront : parts (front ++ ['/']) = parts front := by
      rw [Text.parts_append_slash]
      exact List.append_nil _
    rw [heq, List.append_assoc, List.singleton_append, Text.parts_append_slash, hname, hfront]
  · rw [heq, Text.parts_append_slash, hname]

theorem prefix_foldl_push {names : List Text} (h : ∀ name ∈ names, Plain name) (path : Text) :
    path <+: names.foldl push path := by
  induction names generalizing path with
  | nil => exact List.prefix_rfl
  | cons name names ih =>
    obtain ⟨hname, hnames⟩ := List.forall_mem_cons.1 h
    exact (prefix_push hname).trans (ih hnames (push path name))

theorem parts_foldl_push {names : List Text} (h : ∀ name ∈ names, Plain name) (path : Text) :
    parts (names.foldl push path) = parts path ++ names := by
  induction names generalizing path with
  | nil => exact (List.append_nil _).symm
  | cons name names ih =>
    obtain ⟨hname, hnames⟩ := List.forall_mem_cons.1 h
    rw [List.foldl_cons, ih hnames, parts_push hname, List.append_assoc, List.singleton_append]

/-! ## Request paths -/

/-- What request paths must open with when it is left out. -/
def lead (root : Text) (strip : Bool) : Text :=
  if strip then ['/'] ++ Text.trim '/' root ++ ['/'] else []

theorem resolve?_of_decode {path decoded : Text}
    (h : Text.Percent.decode path = Text.Utf8.encode decoded) (root : Text) (strip : Bool) :
    (new root strip).resolve? path =
      (Text.dropOpening? (lead root strip) decoded).bind
        fun relative => pushAll root (pieces '/' relative) := by
  have htext : Text.Percent.text? path = some decoded := Text.Percent.text?_eq_some_iff.2 h
  cases strip <;> simp [resolve?, htext, new, lead, Text.dropOpening?]

theorem resolve?_of_not_text {path : Text}
    (h : ¬ ∃ decoded, Text.Percent.decode path = Text.Utf8.encode decoded) (s : FileServer) :
    s.resolve? path = none := by
  have htext : Text.Percent.text? path = none := by
    rw [Option.eq_none_iff_forall_ne_some]
    intro decoded hdecoded
    exact h ⟨decoded, Text.Percent.text?_eq_some_iff.1 hdecoded⟩
  simp [resolve?, htext]

theorem exists_lead_iff {root decoded : Text} {strip : Bool} :
    (∃ relative, decoded = lead root strip ++ relative) ↔
      ¬ (strip = true ∧ ¬ ['/'] ++ Text.trim '/' root ++ ['/'] <+: decoded) := by
  have hlead : (∃ relative, decoded = lead root strip ++ relative) ↔
      lead root strip <+: decoded := by
    simp only [List.IsPrefix, eq_comm]
  rw [hlead]
  cases strip <;> simp [lead]

theorem resolve?_eq_none_iff_of_decode {path decoded : Text}
    (h : Text.Percent.decode path = Text.Utf8.encode decoded) {root : Text} {strip : Bool} :
    (new root strip).resolve? path = none ↔
      strip = true ∧ ¬ ['/'] ++ Text.trim '/' root ++ ['/'] <+: decoded ∨
        ∃ relative, decoded = lead root strip ++ relative ∧
          ∃ name ∈ pieces '/' relative, Refused name := by
  rw [resolve?_of_decode h]
  by_cases hlead : ∃ relative, decoded = lead root strip ++ relative
  · have hopens := exists_lead_iff.1 hlead
    obtain ⟨relative, hrelative⟩ := hlead
    rw [Text.dropOpening?_eq_some_iff.2 hrelative, Option.bind_some, pushAll_eq_none_iff]
    constructor
    · intro hname
      exact Or.inr ⟨relative, hrelative, hname⟩
    · rintro (hopening | ⟨other, hother, hname⟩)
      · exact absurd hopening hopens
      · rw [hrelative, List.append_cancel_left_eq] at hother
        exact hother ▸ hname
  · have hdrop : Text.dropOpening? (lead root strip) decoded = none := by
      rw [Option.eq_none_iff_forall_ne_some]
      intro relative hrelative
      exact hlead ⟨relative, Text.dropOpening?_eq_some_iff.1 hrelative⟩
    have hopening := not_not.1 (mt exists_lead_iff.2 hlead)
    rw [hdrop]
    exact iff_of_true rfl (Or.inl hopening)

theorem exists_of_resolve? {root path file : Text} {strip : Bool}
    (h : (new root strip).resolve? path = some file) :
    ∃ relative, Text.Percent.decode path = Text.Utf8.encode (lead root strip ++ relative) ∧
      file = (pushed relative).foldl push root ∧ ∀ name ∈ pushed relative, Plain name := by
  have htext : ∃ decoded, Text.Percent.decode path = Text.Utf8.encode decoded := by
    by_contra htext
    rw [resolve?_of_not_text htext] at h
    cases h
  obtain ⟨decoded, hdecoded⟩ := htext
  rw [resolve?_of_decode hdecoded, Option.bind_eq_some_iff] at h
  obtain ⟨relative, hrelative, hpush⟩ := h
  rw [Text.dropOpening?_eq_some_iff] at hrelative
  have hnames : ∀ name ∈ pieces '/' relative, ¬ Refused name := by
    intro name hname hrefused
    rw [pushAll_of_refused ⟨name, hname, hrefused⟩] at hpush
    cases hpush
  rw [pushAll_of_not_refused hnames] at hpush
  refine ⟨relative, hrelative ▸ hdecoded, (Option.some.inj hpush).symm, ?_⟩
  intro name hname
  exact plain_of_mem_pushed hname (hnames name (List.mem_of_mem_filter hname))

/-- When the path of a request is refused, and where it leads otherwise. -/
structure Confined (root : Text) (strip : Bool) (path : Text) : Prop where
  /-- A path is refused when its bytes are no text, when it does not open as it must, or for one of
  the names in what remains of it. -/
  refused : (new root strip).resolve? path = none ↔
    (¬ ∃ decoded, Text.Percent.decode path = Text.Utf8.encode decoded) ∨
      ∃ decoded, Text.Percent.decode path = Text.Utf8.encode decoded ∧
        (strip = true ∧ ¬ ['/'] ++ Text.trim '/' root ++ ['/'] <+: decoded ∨
          ∃ relative, decoded = lead root strip ++ relative ∧
            ∃ name ∈ pieces '/' relative, Refused name)
  /-- Otherwise the names in what remains are pushed onto the root, which stays as it is, and they
  are the parts of the file's path behind those of the root. -/
  resolved : ∀ file, (new root strip).resolve? path = some file →
    ∃ relative,
      Text.Percent.decode path = Text.Utf8.encode (lead root strip ++ relative) ∧
      file = (pushed relative).foldl push root ∧ root <+: file ∧
      parts file = parts root ++ pushed relative ∧ ∀ name ∈ pushed relative, Plain name
  /-- Nothing but the decoded bytes counts, so it does not matter what is escaped. -/
  escapes : ∀ other, Text.Percent.decode other = Text.Percent.decode path →
    (new root strip).resolve? other = (new root strip).resolve? path

/-- **A file server does not leave its root.** -/
theorem confined (root : Text) (strip : Bool) (path : Text) : Confined root strip path where
  refused := by
    by_cases htext : ∃ decoded, Text.Percent.decode path = Text.Utf8.encode decoded
    · obtain ⟨decoded, hdecoded⟩ := htext
      rw [resolve?_eq_none_iff_of_decode hdecoded]
      constructor
      · intro h
        exact Or.inr ⟨decoded, hdecoded, h⟩
      · rintro (htext | ⟨other, hother, h⟩)
        · exact absurd ⟨decoded, hdecoded⟩ htext
        · rwa [Text.Utf8.encode_injective (hdecoded.symm.trans hother)]
    · simp only [resolve?_of_not_text htext, htext, not_false_eq_true, true_or]
  resolved := by
    intro file hfile
    obtain ⟨relative, hdecoded, rfl, hplain⟩ := exists_of_resolve? hfile
    exact ⟨relative, hdecoded, rfl, prefix_foldl_push hplain root, parts_foldl_push hplain root,
      hplain⟩
  escapes := by
    intro other hother
    simp only [resolve?, Text.Percent.text?, hother]

/-- An escaped slash is one, and so is what stands between two of them. -/
example :
    (new "pub".toList true).resolve? "/pub%2F./a%2fb".toList = some "pub/a/b".toList := by
  decide +kernel

example : (new "pub".toList true).resolve? "/pub/a/%2E%2e/b".toList = none := by decide +kernel

end Routing.FileServer
