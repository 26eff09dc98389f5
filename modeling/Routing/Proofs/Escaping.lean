import Routing.Proofs.Serving
import Routing.Proofs.Tracing

/-!
# Escaped paths

Any bytes of a path can be written as a percent sign and two digits, separators and the bytes of
longer characters among them. The path stands for the same, so nothing that is asked of it depends
on how it was written.

* `Percent.Escapes`, `Percent.decodeBytes_of_escapes` — bytes of which some are escaped, and that
  they are read back.
* `Sealed.Alike` — two paths for which the same is found.
* `Sealed.alike_escaped` — a path is found, answered and served like the one that it escapes.
-/

namespace Routing

namespace Text.Percent

/-! ## Escaping bytes -/

/-- A hexadecimal digit with this value, in either case. -/
def Digit (n : Nat) (c : Char) : Prop :=
  n < 16 ∧ (c = Nat.digitChar n ∨ c = (Nat.digitChar n).toUpper)

/-- The bytes, any of them written as a percent sign and the two digits of the byte. -/
inductive Escapes : Bytes → Bytes → Prop where
  | nil : Escapes [] []
  | plain {bytes written : Bytes} (b : UInt8) :
      Escapes bytes written → Escapes (b :: bytes) (b :: written)
  | escape {bytes written : Bytes} {b : UInt8} {h l : Char} :
      Digit (b.toNat / 16) h → Digit (b.toNat % 16) l → Escapes bytes written →
        Escapes (b :: bytes) (Utf8.encode ['%', h, l] ++ written)

/-- A digit is a single byte, which is read as its value. -/
theorem Digit.read {n : Nat} {c : Char} (h : Digit n c) :
    Utf8.encodeChar c = [UInt8.ofNat c.toNat] ∧ digit? (UInt8.ofNat c.toNat) = some n := by
  obtain ⟨hn, hc⟩ := h
  have hlower : ∀ n < 16, (Nat.digitChar n).toNat < 0x80 ∧
      digit? (UInt8.ofNat (Nat.digitChar n).toNat) = some n := by decide
  have hupper : ∀ n < 16, (Nat.digitChar n).toUpper.toNat < 0x80 ∧
      digit? (UInt8.ofNat (Nat.digitChar n).toUpper.toNat) = some n := by decide
  rcases hc with rfl | rfl
  · exact ⟨Utf8.encodeChar_of_lt (hlower n hn).1, (hlower n hn).2⟩
  · exact ⟨Utf8.encodeChar_of_lt (hupper n hn).1, (hupper n hn).2⟩

/-- **Bytes that were escaped are read back**, if none of them was a percent sign. -/
theorem decodeBytes_of_escapes {bytes written : Bytes} (h : Escapes bytes written)
    (hplain : 0x25 ∉ bytes) : decodeBytes written = bytes := by
  induction h with
  | nil => rfl
  | plain b _ ih =>
    rw [List.mem_cons, not_or] at hplain
    rw [decodeBytes_plain (Ne.symm hplain.1), ih hplain.2]
  | @escape _ written b h l hh hl _ ih =>
    rw [List.mem_cons, not_or] at hplain
    obtain ⟨hhigh, hreadHigh⟩ := hh.read
    obtain ⟨hlow, hreadLow⟩ := hl.read
    have hwritten : Utf8.encode ['%', h, l] ++ written =
        0x25 :: UInt8.ofNat h.toNat :: UInt8.ofNat l.toNat :: written := by
      simp only [Utf8.encode, List.flatMap_cons, List.flatMap_nil, hhigh, hlow]
      rfl
    have hbyte : UInt8.ofNat (16 * (b.toNat / 16) + b.toNat % 16) = b := by
      rw [Nat.div_add_mod, UInt8.ofNat_toNat]
    rw [hwritten, decodeBytes_escape hreadHigh hreadLow, hbyte, ih hplain.2]

theorem decode_of_escapes {path written : Text} (hpath : '%' ∉ path)
    (h : Escapes (Utf8.encode path) (Utf8.encode written)) : decode written = decode path := by
  rw [decode_of_not_mem hpath]
  exact decodeBytes_of_escapes h (not_mem_encode hpath)

end Text.Percent

section

variable [Regex.Engine]

namespace Sealed

/-! ## Paths for which the same is found -/

/-- For both paths the same route is found, with the same parameters, or for neither. -/
structure Alike (s : Sealed) (m : Method) (path path' : Text) : Prop where
  foundAt? : s.foundAt? m path' = s.foundAt? m path
  answer : ∀ found,
    (s.find m path').answer = some (.ok found) ↔ (s.find m path).answer = some (.ok found)
  /-- The layers of the route panic for both or for neither. -/
  panics : (s.find m path').answer = none ↔ (s.find m path).answer = none
  /-- The chain of the route is composed for both or for neither. -/
  events : (s.find m path').events = (s.find m path).events
  router : (s.find m path').router = (s.find m path).router

theorem alike_of_finding? {s : Sealed} {m : Method} {path path' : Text}
    (h : s.finding? m (Text.Percent.text path') = s.finding? m (Text.Percent.text path)) :
    s.Alike m path path' := by
  have hlookup : s.lookup m (Text.Percent.text path') = s.lookup m (Text.Percent.text path) := by
    cases hf : s.finding? m (Text.Percent.text path) with
    | none => rw [lookup_of_none hf, lookup_of_none (h.trans hf)]
    | some f => rw [lookup_of_some hf, lookup_of_some (h.trans hf)]
  refine ⟨?_, fun found => ?_, ?_, ?_, ?_⟩
  · rw [foundAt?_eq, foundAt?_eq, h]
  · rw [answer_find, answer_find, h]
    cases s.finding? m (Text.Percent.text path) <;> simp
  · rw [answer_find, answer_find, h]
    cases s.finding? m (Text.Percent.text path) <;> simp
  · rw [find, find, Served.events_map, Served.events_map, hlookup]
  · rw [router_find, router_find, hlookup]

/-- **How a path is escaped makes no difference**: it is read as the path it escapes, and found,
resolved, allowed and served like that one. -/
theorem alike_escaped (s : Sealed) (m : Method) {path written : Text} (hpath : '%' ∉ path)
    (h : Text.Percent.Escapes (Text.Utf8.encode path) (Text.Utf8.encode written)) :
    Text.Percent.text written = path ∧ s.Alike m path written ∧
      s.resolve m written = s.resolve m path ∧ s.allowed m written = s.allowed m path ∧
      ∀ root strip, (FileServer.new root strip).resolve? written =
        (FileServer.new root strip).resolve? path := by
  have hdecode := Text.Percent.decode_of_escapes hpath h
  have htext : Text.Percent.text written = Text.Percent.text path := by
    rw [Text.Percent.text, hdecode, Text.Percent.text]
  have hstrict : Text.Percent.text? written = Text.Percent.text? path := by
    rw [Text.Percent.text?, hdecode, Text.Percent.text?]
  refine ⟨?_, alike_of_finding? (by rw [htext]), ?_, ?_, fun root strip => ?_⟩
  · rw [htext, Text.Percent.text_of_not_mem hpath]
  · rw [resolve, resolve, htext]
  · rw [allowed, allowed, htext]
  · rw [FileServer.resolve?, FileServer.resolve?, hstrict]

end Sealed

end

namespace Router

open Regex.Standard

/-- The sample captures the letter `é` when a separator and both bytes of the letter are escaped,
with digits in either case. -/
theorem alike_escaped_sample :
    let path := ['/', 'é', '/', 'b']
    let written := ['%', '2', 'f', '%', 'C', '3', '%', 'a', '9', '/', 'b']
    '%' ∉ path ∧ Text.Percent.Escapes (Text.Utf8.encode path) (Text.Utf8.encode written) ∧
      (∃ found, (sample.seal.find .get written).answer = some (.ok found) ∧
        found.params = ⟨[⟨['x'], ['é']⟩]⟩) ∧
      (sample.seal.resolve .post written).answer = (sample.seal.resolve .post path).answer ∧
      (FileServer.new ['s'] false).resolve? written = some ['s', '/', 'é', '/', 'b'] := by
  intro path written
  have hpath : '%' ∉ path := by decide
  have hdigit {n : Nat} {c : Char} (hn : n < 16) (hc : c = Nat.digitChar n) :
      Text.Percent.Digit n c := ⟨hn, Or.inl hc⟩
  have hescapes : Text.Percent.Escapes (Text.Utf8.encode path) (Text.Utf8.encode written) :=
    .escape (hdigit (by decide) rfl) (hdigit (by decide) rfl)
      (.escape ⟨by decide, Or.inr rfl⟩ (hdigit (by decide) rfl)
        (.escape (hdigit (by decide) rfl) (hdigit (by decide) rfl) (.plain _ (.plain _ .nil))))
  have hget := sample.seal.alike_escaped .get hpath hescapes
  have hpost := sample.seal.alike_escaped .post hpath hescapes
  obtain ⟨-, halike, -, -, hserve⟩ := hget
  obtain ⟨-, -, hresolve, -⟩ := hpost
  obtain ⟨arrival, route, handler, harrive, hready, hparams⟩ : ∃ arrival route handler,
      sample.seal.arrive? .get (Text.Percent.text path) = some (arrival, route) ∧
        route.ready.1.value = some handler ∧ arrival.params = ⟨[⟨['x'], ['é']⟩]⟩ := by
    rw [Text.Percent.text_of_not_mem hpath]
    exact ⟨_, _, _, rfl, rfl, rfl⟩
  let found : Match := ⟨handler, arrival.params⟩
  have hfind : (sample.seal.find .get path).answer = some (.ok found) :=
    Sealed.find_eq_ok_iff.2 ⟨arrival, route, harrive, hready, rfl⟩
  refine ⟨hpath, hescapes, ⟨found, (halike.answer found).2 hfind, hparams⟩,
    congrArg Served.answer hresolve, ?_⟩
  rw [hserve]
  decide +kernel

end Router

end Routing
