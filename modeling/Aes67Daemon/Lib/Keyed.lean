import Mathlib.Data.List.Basic
import Mathlib.Data.List.Nodup

/-!
# Collections with a unique key

A `Keyed key` is a collection of records in the order of their insertion, of which
no two have the same key.  It is what a container with a unique index computes:
an insertion, or a replacement that would bring a second record with a key, is
refused and leaves the collection as it is.

## Main definitions

* `Keyed` — the records; that their keys differ is a field.
* `Keyed.find?`, `insert`, `replace`, `eraseIf`, `erase` — the operations.
* `find?_insert`, `find?_replace`, `find?_eraseIf` — what is found after each.
-/
namespace Aes67Daemon

universe u v

/-- Records of which no two have the same key, in the order of their insertion. -/
structure Keyed {α : Type u} {κ : Type v} (key : α → κ) where
  entries : List α
  nodup : (entries.map key).Nodup

namespace Keyed
variable {α : Type u} {κ : Type v} {key : α → κ}

/-- The collection without records. -/
def empty : Keyed key := ⟨[], .nil⟩

/-- Two records with one key are one record. -/
theorem eq_of_key {m : Keyed key} {a b : α} (ha : a ∈ m.entries) (hb : b ∈ m.entries)
    (h : key a = key b) : a = b :=
  List.inj_on_of_nodup_map m.nodup ha hb h

/-- Keep the records a predicate does not select. -/
def eraseIf (m : Keyed key) (p : α → Bool) : Keyed key :=
  ⟨m.entries.filter fun a => !p a, m.nodup.sublist (List.filter_sublist.map key)⟩

@[simp] theorem mem_eraseIf {m : Keyed key} {p : α → Bool} {a : α} :
    a ∈ (m.eraseIf p).entries ↔ a ∈ m.entries ∧ p a = false := by
  simp [eraseIf]

/-- A removal does not show in a selection without the removed records. -/
theorem filter_eraseIf {m : Keyed key} {p q : α → Bool} (h : ∀ a ∈ m.entries, q a = true → p a = false) :
    (m.eraseIf q).entries.filter p = m.entries.filter p := by
  rw [eraseIf, List.filter_filter]
  refine List.filter_congr fun a ha => ?_
  cases hq : q a with
  | false => simp
  | true => simp [h a ha hq]

variable [DecidableEq κ]

/-- The record with a key, if there is one. -/
def find? (m : Keyed key) (k : κ) : Option α := m.entries.find? fun a => key a = k

@[simp] theorem find?_empty (k : κ) : (empty : Keyed key).find? k = none := rfl

theorem find?_eq_some {m : Keyed key} {k : κ} {a : α} :
    m.find? k = some a ↔ a ∈ m.entries ∧ key a = k := by
  constructor
  · intro h
    exact ⟨List.mem_of_find?_eq_some h, by simpa using List.find?_some h⟩
  · rintro ⟨ha, rfl⟩
    have hsome : (m.find? (key a)).isSome := List.find?_isSome.mpr ⟨a, ha, by simp⟩
    obtain ⟨b, hb⟩ := Option.isSome_iff_exists.mp hsome
    have hkey : key b = key a := by simpa using List.find?_some hb
    rw [hb, eq_of_key (List.mem_of_find?_eq_some hb) ha hkey]

theorem find?_eq_none {m : Keyed key} {k : κ} :
    m.find? k = none ↔ ∀ a ∈ m.entries, key a ≠ k := by
  simp [find?, List.find?_eq_none]

/-- The records with a key are at most one. -/
theorem filter_key (m : Keyed key) (k : κ) :
    (m.entries.filter fun a => key a = k) = (m.find? k).toList := by
  cases hfind : m.find? k with
  | none => exact List.filter_eq_nil_iff.mpr fun a ha => by simpa using find?_eq_none.mp hfind a ha
  | some a =>
      obtain ⟨ha, rfl⟩ := find?_eq_some.mp hfind
      obtain ⟨pre, post, hsplit⟩ := List.append_of_mem ha
      have hnodup := m.nodup
      rw [hsplit, List.map_append, List.map_cons, List.nodup_middle, List.nodup_cons,
        List.mem_append, not_or] at hnodup
      have hother : ∀ bs : List α, key a ∉ bs.map key → (bs.filter fun b => key b = key a) = [] := by
        intro bs hbs
        refine List.filter_eq_nil_iff.mpr fun b hb => ?_
        simpa using fun h => hbs (List.mem_map.mpr ⟨b, hb, h⟩)
      rw [hsplit, List.filter_append, List.filter_cons_of_pos (by simp), hother pre hnodup.1.1,
        hother post hnodup.1.2]
      rfl

/-- Insert a record, unless there is one with its key. -/
def insert (m : Keyed key) (a : α) : Keyed key :=
  if h : m.find? (key a) = none then
    ⟨m.entries ++ [a], by
      rw [List.map_append, List.map_singleton]
      refine m.nodup.append (List.nodup_singleton _) ?_
      intro k hk hk'
      obtain ⟨b, hb, rfl⟩ := List.mem_map.mp hk
      exact find?_eq_none.mp h b hb (List.mem_singleton.mp hk')⟩
  else m

/-- Replace the record with a key, unless another one has the new key.  The new
record takes the place of the old one. -/
def replace (m : Keyed key) (k : κ) (b : α) : Keyed key :=
  if h : ∀ a ∈ m.entries, key a = key b → key a = k then
    ⟨m.entries.map fun a => if key a = k then b else a, by
      rw [List.map_map]
      refine List.Nodup.map_on ?_ (List.Nodup.of_map key m.nodup)
      intro x hx y hy hxy
      refine eq_of_key hx hy ?_
      by_cases hkx : key x = k
      · by_cases hky : key y = k
        · rw [hkx, hky]
        · simp only [Function.comp_apply, if_pos hkx, if_neg hky] at hxy
          exact absurd (h y hy hxy.symm) hky
      · by_cases hky : key y = k
        · simp only [Function.comp_apply, if_neg hkx, if_pos hky] at hxy
          exact absurd (h x hx hxy) hkx
        · simpa only [Function.comp_apply, if_neg hkx, if_neg hky] using hxy⟩
  else m

/-- Remove the record with a key, if there is one. -/
def erase (m : Keyed key) (k : κ) : Keyed key := m.eraseIf fun a => key a = k

variable {m : Keyed key}

theorem entries_insert {a : α} (h : m.find? (key a) = none) :
    (m.insert a).entries = m.entries ++ [a] := by
  rw [insert, dif_pos h]

/-- An insertion is refused when the key is taken. -/
theorem insert_of_taken {a b : α} (h : m.find? (key a) = some b) : m.insert a = m := by
  rw [insert, dif_neg (by simp [h])]

theorem entries_replace {k : κ} {b : α} (h : ∀ a ∈ m.entries, key a = key b → key a = k) :
    (m.replace k b).entries = m.entries.map fun a => if key a = k then b else a := by
  rw [replace, dif_pos h]

/-- A replacement is refused when another record has the new key. -/
theorem replace_of_taken {k : κ} {a b : α} (ha : a ∈ m.entries) (hkey : key a = key b)
    (hne : key a ≠ k) : m.replace k b = m := by
  rw [replace, dif_neg fun h => hne (h a ha hkey)]

@[simp] theorem mem_erase {k : κ} {a : α} : a ∈ (m.erase k).entries ↔ a ∈ m.entries ∧ key a ≠ k := by
  simp [erase]

/-- Every record after an insertion was there, or is the new one. -/
theorem mem_of_mem_insert {a b : α} (h : b ∈ (m.insert a).entries) : b ∈ m.entries ∨ b = a := by
  rw [insert] at h
  split at h
  · simpa using h
  · exact .inl h

/-- Every record after a replacement was there, or is the new one. -/
theorem mem_of_mem_replace {k : κ} {a b : α} (h : a ∈ (m.replace k b).entries) :
    a ∈ m.entries ∨ a = b := by
  rw [replace] at h
  split at h
  · obtain ⟨x, hx, rfl⟩ := List.mem_map.mp h
    split
    · exact .inr rfl
    · exact .inl hx
  · exact .inl h

theorem find?_eraseIf (p : α → Bool) (k : κ) :
    (m.eraseIf p).find? k = (m.find? k).filter fun a => !p a := by
  apply Option.ext
  intro a
  rw [find?_eq_some, Option.filter_eq_some_iff, find?_eq_some, mem_eraseIf]
  simp only [Bool.not_eq_true']
  exact ⟨fun h => ⟨⟨h.1.1, h.2⟩, h.1.2⟩, fun h => ⟨⟨h.1.1, h.2⟩, h.1.2⟩⟩

theorem find?_erase (k k' : κ) : (m.erase k).find? k' = if k' = k then none else m.find? k' := by
  rw [erase, find?_eraseIf]
  split
  · rename_i h
    subst h
    cases hm : m.find? k' with
    | none => rfl
    | some a => simp [Option.filter, (find?_eq_some.mp hm).2]
  · rename_i h
    cases hm : m.find? k' with
    | none => rfl
    | some a => simp [Option.filter, (find?_eq_some.mp hm).2, h]

/-- **What is found after an insertion.** -/
theorem find?_insert {a : α} (h : m.find? (key a) = none) (k : κ) :
    (m.insert a).find? k = if k = key a then some a else m.find? k := by
  apply Option.ext
  intro b
  rw [find?_eq_some, entries_insert h, List.mem_append, List.mem_singleton]
  split
  · rename_i hk
    subst hk
    constructor
    · rintro ⟨hb | rfl, hkey⟩
      · exact absurd hkey (find?_eq_none.mp h b hb)
      · rfl
    · intro hb
      obtain rfl := Option.some.inj hb
      exact ⟨.inr rfl, rfl⟩
  · rename_i hk
    rw [find?_eq_some]
    constructor
    · rintro ⟨hb | rfl, hkey⟩
      · exact ⟨hb, hkey⟩
      · exact absurd hkey.symm hk
    · exact fun hb => ⟨.inl hb.1, hb.2⟩

/-- **What is found after a replacement.** -/
theorem find?_replace {k : κ} {a b : α} (ha : m.find? k = some a)
    (h : ∀ x ∈ m.entries, key x = key b → key x = k) (k' : κ) :
    (m.replace k b).find? k' =
      if k' = key b then some b else if k' = k then none else m.find? k' := by
  obtain ⟨hmem, hkey⟩ := find?_eq_some.mp ha
  have hnew : b ∈ (m.replace k b).entries := by
    rw [entries_replace h]
    exact List.mem_map.mpr ⟨a, hmem, if_pos hkey⟩
  have hold : ∀ c, key c ≠ key b → (c ∈ (m.replace k b).entries ↔ c ∈ m.entries ∧ key c ≠ k) := by
    intro c hc
    rw [entries_replace h, List.mem_map]
    constructor
    · rintro ⟨x, hx, rfl⟩
      split at hc
      · exact absurd rfl hc
      · rename_i hxk
        rw [if_neg hxk]
        exact ⟨hx, hxk⟩
    · rintro ⟨hcmem, hck⟩
      exact ⟨c, hcmem, if_neg hck⟩
  split
  · rename_i hk
    rw [hk, find?_eq_some]
    exact ⟨hnew, rfl⟩
  · rename_i hk
    split
    · rename_i hk'
      subst hk'
      refine find?_eq_none.mpr fun c hc hck => ?_
      exact ((hold c (hck ▸ hk)).mp hc).2 hck
    · rename_i hk'
      apply Option.ext
      intro c
      rw [find?_eq_some, find?_eq_some]
      constructor
      · rintro ⟨hc, rfl⟩
        exact ⟨((hold c hk).mp hc).1, rfl⟩
      · rintro ⟨hc, rfl⟩
        exact ⟨(hold c hk).mpr ⟨hc, hk'⟩, rfl⟩

/-- The same for a record that keeps its key. -/
theorem find?_replace_self {k : κ} {a b : α} (ha : m.find? k = some a) (hb : key b = k) (k' : κ) :
    (m.replace k b).find? k' = if k' = k then some b else m.find? k' := by
  rw [find?_replace ha fun x _ hx => hx.trans hb, hb]
  split <;> rfl

/-! ## Selections -/

theorem filter_insert {p : α → Bool} {a : α} (h : m.find? (key a) = none) :
    (m.insert a).entries.filter p = m.entries.filter p ++ if p a then [a] else [] := by
  rw [entries_insert h, List.filter_append, List.filter_singleton, Bool.cond_eq_ite]

/-- A replacement acts on a selection that takes both the old and the new record,
or neither of them. -/
theorem filter_replace {p : α → Bool} {k : κ} {b : α}
    (h : ∀ a ∈ m.entries, key a = key b → key a = k) (hp : ∀ a ∈ m.entries, key a = k → p a = p b) :
    (m.replace k b).entries.filter p =
      (m.entries.filter p).map fun a => if key a = k then b else a := by
  rw [entries_replace h, List.filter_map]
  refine congrArg _ (List.filter_congr fun a ha => ?_)
  rw [Function.comp_apply]
  split
  · rename_i hk
    exact (hp a ha hk).symm
  · rfl

end Keyed
end Aes67Daemon
