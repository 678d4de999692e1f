import Aes67Daemon.Lib.Json

/-!
# Texts of JSON documents

What goes into a document that is put together by hand.  In such a document a control character
in a string stands for itself.  `Json.readRaw` is a reader of these documents: it is `Json.read`
after the control characters in strings have been escaped.  A program reads them with a reader of
its own; the results about the program ask of that reader that it agrees with this one where
this one reads anything.

## Main definitions

* `inQuotes`, `boolText` — texts that are spliced into a document.
* `Json.escapeRaw`, `Json.readRaw` — the reader that takes control characters.
* `Json.Inert` — a part of a document, and what it is after the escaping.
-/
namespace Aes67Daemon

/-- A text between quotes, as it is. -/
def inQuotes (t : Text) : Text := '"' :: t ++ ['"']

def boolText (b : Bool) : Text := (if b then "true" else "false").toList

namespace Json

/-- Escape the control characters in the strings of a document; the flag says whether the
text begins in a string. -/
def escapeRaw : Bool → Text → Text
  | _, [] => []
  | false, c :: t => c :: escapeRaw (c = '"') t
  | true, '\\' :: c :: t => '\\' :: c :: escapeRaw true t
  | true, c :: t =>
    if c = '"' then c :: escapeRaw false t
    else if c.toNat < 0x20 then escape c ++ escapeRaw true t
    else c :: escapeRaw true t

/-- Read a document. -/
def readRaw (t : Text) : Option Ptree := read (escapeRaw false t)

/-- A part of a document outside of strings, and what it is after the escaping. -/
def Inert (t u : Text) : Prop := ∀ rest, escapeRaw false (t ++ rest) = u ++ escapeRaw false rest

/-- A part of a string, and what it is after the escaping. -/
def InString (e e' : Text) : Prop := ∀ rest, escapeRaw true (e ++ rest) = e' ++ escapeRaw true rest

theorem inert_nil : Inert [] [] := fun _ => rfl

theorem Inert.append {t t' u u' : Text} (h : Inert t u) (h' : Inert t' u') : Inert (t ++ t') (u ++ u') := by
  intro rest
  rw [List.append_assoc, h, h', List.append_assoc]

/-- What has no quotes is left alone. -/
theorem inert_of_notMem {t : Text} (h : '"' ∉ t) : Inert t t := by
  induction t with
  | nil => exact inert_nil
  | cons c t ih =>
      intro rest
      have hne : c ≠ '"' := fun heq => h (heq ▸ List.mem_cons_self)
      have hrest := ih (fun hmem => h (List.mem_cons_of_mem _ hmem)) rest
      rw [List.cons_append, escapeRaw, decide_eq_false hne, hrest, List.cons_append]

theorem inString_nil : InString [] [] := fun _ => rfl

theorem InString.append {e e' f f' : Text} (h : InString e f) (h' : InString e' f') :
    InString (e ++ e') (f ++ f') := by
  intro rest
  rw [List.append_assoc, h, h', List.append_assoc]

/-- A character that needs no escape in a string is left alone. -/
theorem inString_char {c : Char} (hquote : c ≠ '"') (hslash : c ≠ '\\') :
    InString [c] (if c.toNat < 0x20 then escape c else [c]) := by
  intro rest
  rw [List.singleton_append, escapeRaw.eq_def]
  split
  · rename_i heq
    cases heq
  · rename_i heq _
    cases heq
  · rename_i heq
    exact absurd (List.cons.inj heq).1 hslash
  · rename_i heq
    obtain ⟨rfl, rfl⟩ := List.cons.inj heq
    rw [if_neg hquote]
    split <;> rfl

theorem inString_escape (c : Char) : InString ['\\', c] ['\\', c] := fun _ => rfl

theorem InString.inert {e e' : Text} (h : InString e e') : Inert (inQuotes e) (inQuotes e') := by
  intro rest
  have hend : escapeRaw true ('"' :: rest) = '"' :: escapeRaw false rest := by
    rw [escapeRaw.eq_def]
    rfl
  rw [inQuotes, List.cons_append, List.cons_append, escapeRaw, decide_eq_true (rfl : '"' = '"'), List.append_assoc, h,
    List.singleton_append, hend]
  simp [inQuotes]

/-- A string without quotes and backslashes. -/
theorem inString_flatMap {e : Text} (h : ∀ c ∈ e, c ≠ '"' ∧ c ≠ '\\') :
    InString e (e.flatMap fun c => if c.toNat < 0x20 then escape c else [c]) := by
  induction e with
  | nil => exact inString_nil
  | cons c e ih =>
      have hc := h c List.mem_cons_self
      have hcons := (inString_char hc.1 hc.2).append (ih fun d hd => h d (List.mem_cons_of_mem _ hd))
      simpa using hcons

/-- **A control character stands for itself.** -/
theorem encodes_flatMap {e : Text} (h : ∀ c ∈ e, c ≠ '"' ∧ c ≠ '\\')
    (hcontrol : ∀ c ∈ e, c.toNat < 0x20 → c = '\n' ∨ c = '\r' ∨ c = '\t') :
    Encodes (e.flatMap fun c => if c.toNat < 0x20 then escape c else [c]) e := by
  induction e with
  | nil => exact encodes_nil
  | cons c e ih =>
      obtain ⟨hquote, hslash⟩ := h c List.mem_cons_self
      have hrest := ih (fun d hd => h d (List.mem_cons_of_mem _ hd)) fun d hd => hcontrol d (List.mem_cons_of_mem _ hd)
      rw [List.flatMap_cons]
      split
      · rename_i hlow
        rcases hcontrol c List.mem_cons_self hlow with rfl | rfl | rfl
        · exact hrest.escape fun _ => rfl
        · exact hrest.escape fun _ => rfl
        · exact hrest.escape fun _ => rfl
      · rename_i hlow
        exact hrest.cons (by simp [plain, not_lt.mp hlow, hquote, hslash])

/-- Parts of a document in a row, with something between them that has no quotes. -/
theorem inert_intercalate {sep : Text} (hsep : '"' ∉ sep) : ∀ ms : List (Text × Text), (∀ m ∈ ms, Inert m.1 m.2) →
    Inert (sep.intercalate (ms.map Prod.fst)) (sep.intercalate (ms.map Prod.snd))
  | [], _ => inert_nil
  | [m], h => by simpa using h m List.mem_cons_self
  | m :: m' :: ms, h => by
      have hrest := inert_intercalate hsep (m' :: ms) fun m'' hm => h m'' (List.mem_cons_of_mem _ hm)
      rw [List.map_cons, List.map_cons, List.map_cons, List.map_cons, List.intercalate_cons_cons,
        List.intercalate_cons_cons]
      exact ((h m List.mem_cons_self).append (inert_of_notMem hsep)).append hrest

theorem inert_memberText {key v v' : Text} (hkey : ∀ c ∈ key, plain c = true) (hv : Inert v v') :
    Inert (memberText (key, v)) (memberText (key, v')) := by
  have hin : InString key key := by
    have hflat := inString_flatMap fun c hc => (show c ≠ '"' ∧ c ≠ '\\' by
      have hplain := hkey c hc
      simp only [plain, Bool.and_eq_true, bne_iff_ne] at hplain
      exact ⟨hplain.1.2, hplain.2⟩)
    have hself : (key.flatMap fun c => if c.toNat < 0x20 then escape c else [c]) = key.flatMap fun c => [c] := by
      refine List.flatMap_congr fun c hc => if_neg ?_
      have hplain := hkey c hc
      simp only [plain, Bool.and_eq_true, decide_eq_true_eq] at hplain
      omega
    rwa [hself, List.flatMap_singleton'] at hflat
  have hmember : ∀ v : Text, memberText (key, v) = inQuotes key ++ (": ".toList ++ v) := by
    intro v
    simp [memberText, inQuotes]
  rw [hmember, hmember]
  exact hin.inert.append ((inert_of_notMem (by decide)).append hv)

/-- **A document is read after its strings have been escaped.** -/
theorem readRaw_eq {t u w : Text} {tree : Ptree} (h : Inert (t ++ w) (u ++ w)) (hreads : Reads u tree)
    (hutf8 : isUtf8 u = true) (hw : ∀ c ∈ w, isWs c = true) : readRaw (t ++ w) = some tree := by
  have hall := h []
  rw [List.append_nil, escapeRaw, List.append_nil] at hall
  rw [readRaw, hall]
  exact read_eq hreads hutf8 hw

end Json
end Aes67Daemon
