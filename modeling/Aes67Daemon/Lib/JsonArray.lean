import Aes67Daemon.Lib.JsonText

/-!
# Documents with arrays

The elements of an array become children under the empty key, in order.  A document that
is put together from parts is read part by part: a part that is left alone by the escaping
of the document, is ASCII and is read as some tree wherever it stands can be a member of an
object or an element of an array, which are such parts again.

## Main definitions

* `Json.Elements` — the text of the elements of an array, and what they are read as.
* `Json.reads_array` — an array is read element by element.
* `Json.Written`, `Json.Written.object`, `Json.Written.array` — parts of a document.
* `Json.Written.read` — a document is read as its parts.
-/
namespace Aes67Daemon

namespace Json

/-- The text of the elements of an array, from after its opening bracket to its closing bracket,
and what they are read as. -/
inductive Elements : Text → List Ptree → Prop
  | last {w v w' : Text} {tree : Ptree} (hw : ∀ c ∈ w, isWs c = true) (hv : Reads v tree)
      (hw' : ∀ c ∈ w', isWs c = true) : Elements (w ++ v ++ w' ++ [']']) [tree]
  | cons {w v t : Text} {tree : Ptree} {ts : List Ptree} (hw : ∀ c ∈ w, isWs c = true) (hv : Reads v tree)
      (h : Elements t ts) : Elements (w ++ v ++ ',' :: t) (tree :: ts)

/-- **The elements of an array are read in order.** -/
theorem elements_append {t : Text} {ts : List Ptree} (h : Elements t ts) :
    ∀ n rest, t.length ≤ n → elements (n + 1) (t ++ rest) = some (ts.map fun v => ([], v), rest) := by
  induction h with
  | @last w v w' tree hw hv hw' =>
    intro n rest hn
    simp only [List.length_append, List.length_cons, List.length_nil] at hn
    obtain ⟨n, rfl⟩ : ∃ m, n = m + 1 := ⟨n - 1, by omega⟩
    have hvalue := hv n (w' ++ ']' :: rest) (by omega) (follows_ws hw' (by decide) rest)
    have htext : w ++ v ++ w' ++ [']'] ++ rest = w ++ (v ++ (w' ++ ']' :: rest)) := by simp
    rw [htext, elements, value_skip hw, hvalue]
    simp only [Option.bind_eq_bind, Option.bind_some, skipWs_append hw']
    rw [skipWs_cons (by decide)]
    rfl
  | @cons w v t tree ts hw hv h ih =>
    intro n rest hn
    simp only [List.length_append, List.length_cons] at hn
    obtain ⟨n, rfl⟩ : ∃ m, n = m + 1 := ⟨n - 1, by omega⟩
    have hvalue := hv n (',' :: (t ++ rest)) (by omega) (follows_ws (w := []) (by simp) (by decide) _)
    have htext : w ++ v ++ ',' :: t ++ rest = w ++ (v ++ ',' :: (t ++ rest)) := by simp
    rw [htext, elements, value_skip hw, hvalue]
    simp only [Option.bind_eq_bind, Option.bind_some]
    rw [skipWs_cons (by decide)]
    simp only [ih n rest (by omega), Option.map_some, List.map_cons]

/-- No value starts with a closing bracket. -/
theorem value_bracket (n : ℕ) (t : Text) : value n (']' :: t) = none := by
  cases n with
  | zero => rfl
  | succ n => rfl

/-- White space in front of a value does not matter. -/
theorem value_dropped (n : ℕ) (t : Text) : value n (skipWs t) = value n t := by
  cases n with
  | zero => rfl
  | succ n => rw [value, value, skipWs, skipWs, List.dropWhile_idempotent]

/-- An array with elements is read element by element. -/
theorem reads_elements {t : Text} {ts : List Ptree} (h : Elements t ts) :
    Reads ('[' :: t) (.node [] (ts.map fun v => ([], v))) := by
  intro n rest hn _
  rw [List.length_cons] at hn
  obtain ⟨n, rfl⟩ : ∃ m, n = m + 1 := ⟨n - 1, by omega⟩
  have hread := elements_append h n rest (by omega)
  rw [List.cons_append, value, skipWs_cons (by decide)]
  have hopen : ∀ u, skipWs (t ++ rest) ≠ ']' :: u := by
    intro u hu
    have hnone : value n (t ++ rest) = none := by
      rw [← value_dropped, hu]
      exact value_bracket n u
    rw [elements, hnone] at hread
    cases hread
  have hskip : elements (n + 1) (skipWs (t ++ rest)) = elements (n + 1) (t ++ rest) := by
    rw [elements, elements, value_dropped]
  split
  · rename_i heq
    cases heq
  · rename_i u heq
    cases heq
    split
    · rename_i v hv
      exact absurd hv (hopen v)
    · rw [hskip, hread]
      rfl
  · rename_i heq
    cases heq
  · rename_i _ harray _
    exact absurd rfl (harray _)

theorem reads_noElements {w : Text} (hw : ∀ c ∈ w, isWs c = true) : Reads ('[' :: w ++ [']']) (.leaf []) := by
  intro n rest _ _
  rw [value, List.cons_append, List.cons_append, skipWs_cons (by decide)]
  simp only [List.append_assoc, skipWs_append hw, List.cons_append, List.nil_append]
  rw [skipWs_cons (by decide)]
  rfl

/-- Elements in a row are read in order. -/
theorem elements_intercalate {sep w : Text} (hsep : ∀ c ∈ sep, isWs c = true) (hw : ∀ c ∈ w, isWs c = true)
    (es : List (Text × Ptree)) (e : Text × Ptree) (h : ∀ e' ∈ e :: es, Reads e'.1 e'.2) {lead : Text}
    (hlead : ∀ c ∈ lead, isWs c = true) :
    Elements (lead ++ (',' :: sep).intercalate ((e :: es).map Prod.fst) ++ w ++ [']']) ((e :: es).map Prod.snd) := by
  induction es generalizing e lead with
  | nil =>
    have hlast := Elements.last hlead (h e List.mem_cons_self) hw
    simpa using hlast
  | cons e' es ih =>
    have hrest := ih e' (fun e'' he => h e'' (List.mem_cons_of_mem _ he)) hsep
    have hcons := Elements.cons hlead (h e List.mem_cons_self) hrest
    simpa using hcons

/-- **An array that is written element by element is read as its elements.** -/
theorem reads_array {lead sep w : Text} (hlead : ∀ c ∈ lead, isWs c = true) (hsep : ∀ c ∈ sep, isWs c = true)
    (hw : ∀ c ∈ w, isWs c = true) {es : List (Text × Ptree)} (h : ∀ e ∈ es, Reads e.1 e.2) :
    Reads ('[' :: lead ++ (',' :: sep).intercalate (es.map Prod.fst) ++ w ++ [']'])
      (.node [] (es.map fun e => ([], e.2))) := by
  cases es with
  | nil =>
    have hblank : ∀ c ∈ lead ++ w, isWs c = true := by
      intro c hc
      rcases List.mem_append.mp hc with hc | hc
      · exact hlead c hc
      · exact hw c hc
    simpa [Ptree.leaf] using reads_noElements hblank
  | cons e es =>
    have hread := reads_elements (elements_intercalate hsep hw es e h hlead)
    simpa [Function.comp_def] using hread

/-- White space in front of a value. -/
theorem Reads.skip {w t : Text} {tree : Ptree} (hw : ∀ c ∈ w, isWs c = true) (h : Reads t tree) :
    Reads (w ++ t) tree := by
  intro n rest hn hrest
  rw [List.length_append] at hn
  rw [List.append_assoc, value_skip hw]
  exact h n rest (by omega) hrest

/-! ## Parts of a document -/

/-- A part of a document that needs no escape and is ASCII. -/
structure Kept (t : Text) : Prop where
  inert : Inert t t
  ascii : ∀ c ∈ t, c.toNat < 0x80

namespace Kept

theorem nil : Kept [] := ⟨inert_nil, by simp⟩

theorem append {t u : Text} (ht : Kept t) (hu : Kept u) : Kept (t ++ u) := by
  refine ⟨ht.inert.append hu.inert, fun c hc => ?_⟩
  rcases List.mem_append.mp hc with hc | hc
  · exact ht.ascii c hc
  · exact hu.ascii c hc

theorem ofAscii {t : Text} (h : ∀ c ∈ t, c ≠ '"' ∧ c.toNat < 0x80) : Kept t :=
  ⟨inert_of_notMem fun hmem => (h _ hmem).1 rfl, fun c hc => (h c hc).2⟩

/-- White space. -/
theorem blank {w : Text} (hw : ∀ c ∈ w, isWs c = true) : Kept w := by
  apply ofAscii
  intro c hc
  have hblank := hw c hc
  simp only [isWs, Bool.or_eq_true, decide_eq_true_eq] at hblank
  rcases hblank with ((rfl | rfl) | rfl) | rfl <;> decide

theorem intercalate {sep : Text} (hsep : Kept sep) {ts : List Text} (h : ∀ t ∈ ts, Kept t) :
    Kept (sep.intercalate ts) := by
  induction ts with
  | nil => exact nil
  | cons t ts ih =>
    have hrest := ih fun u hu => h u (List.mem_cons_of_mem _ hu)
    cases ts with
    | nil => simpa using h t List.mem_cons_self
    | cons u ts =>
      rw [List.intercalate_cons_cons]
      exact ((h t List.mem_cons_self).append hsep).append hrest

theorem memberText {key v : Text} (hkey : ∀ c ∈ key, plain c = true ∧ c.toNat < 0x80) (hv : Kept v) :
    Kept (memberText (key, v)) := by
  refine ⟨inert_memberText (fun c hc => (hkey c hc).1) hv.inert, ?_⟩
  intro c hc
  simp only [Json.memberText, List.mem_append, List.mem_cons] at hc
  rcases hc with ((rfl | hc) | hc) | hc
  · decide
  · exact (hkey c hc).2
  · exact of_decide_eq_true (List.all_eq_true.mp
      (show ("\": ".toList.all fun c => decide (c.toNat < 0x80)) = true by decide) c hc)
  · exact hv.ascii c hc

/-- Parts between brackets, with commas and white space between them. -/
theorem bracketed {o c : Char} (ho : o ≠ '"' ∧ o.toNat < 0x80) (hc : c ≠ '"' ∧ c.toNat < 0x80)
    {lead sep w : Text} (hlead : ∀ c ∈ lead, isWs c = true) (hsep : ∀ c ∈ sep, isWs c = true)
    (hw : ∀ c ∈ w, isWs c = true) {ts : List Text} (h : ∀ t ∈ ts, Kept t) :
    Kept (o :: lead ++ (',' :: sep).intercalate ts ++ w ++ [c]) := by
  have hopen : Kept [o] := ofAscii (by simpa using ho)
  have hclose : Kept [c] := ofAscii (by simpa using hc)
  have hcomma : Kept (',' :: sep) := append (t := [',']) (ofAscii (by simp)) (blank hsep)
  exact ((append (t := [o]) hopen (blank hlead)).append (intercalate hcomma h)).append (blank hw) |>.append hclose

end Kept

/-- A part of a document that is read as a tree. -/
structure Written (t : Text) (tree : Ptree) : Prop extends Kept t where
  reads : Reads t tree

namespace Written

theorem skip {w t : Text} {tree : Ptree} (hw : ∀ c ∈ w, isWs c = true) (h : Written t tree) :
    Written (w ++ t) tree :=
  ⟨(Kept.blank hw).append h.toKept, h.reads.skip hw⟩

/-- **An object is written member by member.** -/
theorem object {lead sep w : Text} (hlead : ∀ c ∈ lead, isWs c = true) (hsep : ∀ c ∈ sep, isWs c = true)
    (hw : ∀ c ∈ w, isWs c = true) {ms : List (Text × Text × Ptree)}
    (h : ∀ m ∈ ms, (∀ c ∈ m.1, plain c = true ∧ c.toNat < 0x80) ∧ Written m.2.1 m.2.2) :
    Written ('{' :: lead ++ (',' :: sep).intercalate (ms.map fun m => memberText (m.1, m.2.1)) ++ w ++ ['}'])
      (.node [] (ms.map fun m => (m.1, m.2.2))) := by
  constructor
  · apply Kept.bracketed (by decide) (by decide) hlead hsep hw
    intro t ht
    obtain ⟨m, hm, rfl⟩ := List.mem_map.mp ht
    exact Kept.memberText (h m hm).1 (h m hm).2.toKept
  · exact reads_members hlead hsep hw fun m hm => ⟨fun c hc => ((h m hm).1 c hc).1, (h m hm).2.reads⟩

/-- **An array is written element by element.** -/
theorem array {lead sep w : Text} (hlead : ∀ c ∈ lead, isWs c = true) (hsep : ∀ c ∈ sep, isWs c = true)
    (hw : ∀ c ∈ w, isWs c = true) {es : List (Text × Ptree)} (h : ∀ e ∈ es, Written e.1 e.2) :
    Written ('[' :: lead ++ (',' :: sep).intercalate (es.map Prod.fst) ++ w ++ [']'])
      (.node [] (es.map fun e => ([], e.2))) := by
  constructor
  · apply Kept.bracketed (by decide) (by decide) hlead hsep hw
    intro t ht
    obtain ⟨e, he, rfl⟩ := List.mem_map.mp ht
    exact (h e he).toKept
  · exact reads_array hlead hsep hw fun e he => (h e he).reads

/-- **A document that is one part is read as the tree of that part.** -/
theorem read {t w : Text} {tree : Ptree} (h : Written t tree) (hw : ∀ c ∈ w, isWs c = true) :
    readRaw (t ++ w) = some tree :=
  readRaw_eq (h.inert.append (Kept.blank hw).inert) h.reads (isUtf8_of_ascii h.ascii) hw

end Written

end Json
end Aes67Daemon
