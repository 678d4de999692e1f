import Mathlib.Order.Basic
import Mathlib.Order.Defs.LinearOrder
import Mathlib.Data.List.Basic
import Mathlib.Data.UInt

/-!
# Sorted maps

A `SortedMap κ α` is a finite map whose entries are listed in strictly
increasing key order, so that a map is determined by its lookups and iterating
over it visits every key once, in order.  The order of the entries is a field
of the structure: no operation can build a map that lists a key twice.

Everything is computable and reduces in the kernel.

## Main definitions

* `SortedMap` — entries in increasing key order.
* `SortedMap.find?`, `insert`, `erase`, `eraseIf`, `modify` — the operations.
* `SortedMap.ext_find?` — two maps with the same lookups are equal.
* `SortedMap.countP_erase_add` — counting entries, one of them set apart.
-/
namespace Aes67Daemon

/-! ## Linear orders on fixed-width words -/

instance linearOrderUInt8 : LinearOrder UInt8 where
  le_refl := UInt8.le_refl
  le_trans _ _ _ := UInt8.le_trans
  lt_iff_le_not_ge a b := by simp only [UInt8.le_iff_toNat_le, UInt8.lt_iff_toNat_lt]; omega
  le_antisymm _ _ := UInt8.le_antisymm
  le_total := UInt8.le_total
  toDecidableLE := inferInstance
  toDecidableLT := inferInstance
  toDecidableEq := inferInstance

instance linearOrderUInt32 : LinearOrder UInt32 where
  le_refl := UInt32.le_refl
  le_trans _ _ _ := UInt32.le_trans
  lt_iff_le_not_ge a b := by simp only [UInt32.le_iff_toNat_le, UInt32.lt_iff_toNat_lt]; omega
  le_antisymm _ _ := UInt32.le_antisymm
  le_total := UInt32.le_total
  toDecidableLE := inferInstance
  toDecidableLT := inferInstance
  toDecidableEq := inferInstance

instance linearOrderUInt64 : LinearOrder UInt64 where
  le_refl := UInt64.le_refl
  le_trans _ _ _ := UInt64.le_trans
  lt_iff_le_not_ge a b := by simp only [UInt64.le_iff_toNat_le, UInt64.lt_iff_toNat_lt]; omega
  le_antisymm _ _ := UInt64.le_antisymm
  le_total := UInt64.le_total
  toDecidableLE := inferInstance
  toDecidableLT := inferInstance
  toDecidableEq := inferInstance

universe u v

/-- A finite map, as its entries in strictly increasing key order. -/
structure SortedMap (κ : Type u) (α : Type v) [LinearOrder κ] where
  /-- The entries, in iteration order. -/
  entries : List (κ × α)
  sorted : entries.Pairwise (fun a b => a.1 < b.1)
  deriving DecidableEq

namespace SortedMap
variable {κ : Type u} {α : Type v} [LinearOrder κ]

/-- The map without entries. -/
def empty : SortedMap κ α := ⟨[], .nil⟩

instance : Inhabited (SortedMap κ α) := ⟨empty⟩

/-- Insertion into a sorted entry list, replacing the value of a present key. -/
def insertEntry (k : κ) (a : α) : List (κ × α) → List (κ × α)
  | [] => [(k, a)]
  | e :: es =>
    if k < e.1 then (k, a) :: e :: es
    else if e.1 < k then e :: insertEntry k a es
    else (k, a) :: es

theorem mem_insertEntry_imp {k : κ} {a : α} {e : κ × α} {es : List (κ × α)}
    (h : e ∈ insertEntry k a es) : e = (k, a) ∨ e ∈ es := by
  induction es with
  | nil => simpa [insertEntry] using h
  | cons e' es ih =>
      simp only [insertEntry] at h
      split at h
      · simpa using h
      · split at h
        · rcases List.mem_cons.mp h with h | h
          · exact .inr (h ▸ List.mem_cons_self)
          · exact (ih h).imp_right (List.mem_cons_of_mem _)
        · rcases List.mem_cons.mp h with h | h
          · exact .inl h
          · exact .inr (List.mem_cons_of_mem _ h)

theorem insertEntry_sorted (k : κ) (a : α) {es : List (κ × α)}
    (h : es.Pairwise (fun a b => a.1 < b.1)) :
    (insertEntry k a es).Pairwise (fun a b => a.1 < b.1) := by
  induction es with
  | nil => simp [insertEntry]
  | cons e es ih =>
      obtain ⟨he, hes⟩ := List.pairwise_cons.mp h
      simp only [insertEntry]
      split
      · rename_i hk
        refine List.pairwise_cons.mpr ⟨?_, h⟩
        intro b hb
        rcases List.mem_cons.mp hb with rfl | hb
        · exact hk
        · exact lt_trans hk (he b hb)
      · split
        · rename_i hk
          refine List.pairwise_cons.mpr ⟨?_, ih hes⟩
          intro b hb
          rcases mem_insertEntry_imp hb with rfl | hb
          · exact hk
          · exact he b hb
        · rename_i hk hk'
          have heq : k = e.1 := le_antisymm (not_lt.mp hk') (not_lt.mp hk)
          exact List.pairwise_cons.mpr ⟨fun b hb => heq ▸ he b hb, hes⟩

/-- The value stored under a key, if there is one. -/
def find? (m : SortedMap κ α) (k : κ) : Option α :=
  (m.entries.find? (fun e => e.1 = k)).map Prod.snd

/-- Store a value under a key, replacing what was there. -/
def insert (m : SortedMap κ α) (k : κ) (a : α) : SortedMap κ α :=
  ⟨insertEntry k a m.entries, insertEntry_sorted k a m.sorted⟩

/-- Remove the entries a predicate selects. -/
def eraseIf (m : SortedMap κ α) (p : κ → α → Bool) : SortedMap κ α :=
  ⟨m.entries.filter (fun e => !p e.1 e.2), m.sorted.filter _⟩

/-- Remove the entry of a key, if there is one. -/
def erase (m : SortedMap κ α) (k : κ) : SortedMap κ α :=
  m.eraseIf (fun k' _ => k' = k)

/-- Apply a function to every value. -/
def mapVal {β : Type v} (m : SortedMap κ α) (f : κ → α → β) : SortedMap κ β :=
  ⟨m.entries.map (fun e => (e.1, f e.1 e.2)), List.pairwise_map.mpr m.sorted⟩

/-- Apply a function to the value of one key, if it has one. -/
def modify (m : SortedMap κ α) (k : κ) (f : α → α) : SortedMap κ α :=
  m.mapVal fun k' a => if k' = k then f a else a

/-- Whether a key has an entry. -/
def contains (m : SortedMap κ α) (k : κ) : Bool := (m.find? k).isSome

/-! ## Lookups -/

theorem keys_nodup (m : SortedMap κ α) : (m.entries.map Prod.fst).Nodup :=
  List.pairwise_map.mpr (m.sorted.imp ne_of_lt)

theorem find?_entry_eq_some {es : List (κ × α)} (hs : es.Pairwise (fun a b => a.1 < b.1))
    {k : κ} {a : α} :
    (es.find? (fun e => e.1 = k)).map Prod.snd = some a ↔ (k, a) ∈ es := by
  induction es with
  | nil => simp
  | cons e es ih =>
      obtain ⟨he, hes⟩ := List.pairwise_cons.mp hs
      by_cases hk : e.1 = k
      · subst hk
        have hnot : (e.1, a) ∉ es := fun h => lt_irrefl _ (he (e.1, a) h)
        simp [hnot, Prod.ext_iff, eq_comm]
      · have hne : (k, a) ≠ e := fun h => hk (h ▸ rfl)
        simp [hk, hne, ih hes]

/-- A lookup finds exactly the listed entries. -/
theorem mem_entries {m : SortedMap κ α} {k : κ} {a : α} :
    (k, a) ∈ m.entries ↔ m.find? k = some a :=
  (find?_entry_eq_some m.sorted).symm

@[simp] theorem find?_empty (k : κ) : (empty : SortedMap κ α).find? k = none := rfl

@[simp] theorem contains_eq_true {m : SortedMap κ α} {k : κ} :
    m.contains k = true ↔ ∃ a, m.find? k = some a := Option.isSome_iff_exists

theorem find?_eraseIf (m : SortedMap κ α) (p : κ → α → Bool) (k : κ) :
    (m.eraseIf p).find? k = (m.find? k).filter (fun a => !p k a) := by
  apply Option.ext
  intro a
  rw [← mem_entries, Option.filter_eq_some_iff, ← mem_entries]
  simp [eraseIf]

@[simp] theorem find?_erase_self (m : SortedMap κ α) (k : κ) : (m.erase k).find? k = none := by
  simp [erase, find?_eraseIf]

theorem find?_erase_of_ne (m : SortedMap κ α) {k k' : κ} (h : k' ≠ k) :
    (m.erase k).find? k' = m.find? k' := by
  cases hm : m.find? k' <;> simp [erase, find?_eraseIf, h, hm]

theorem find?_erase (m : SortedMap κ α) (k k' : κ) :
    (m.erase k).find? k' = if k' = k then none else m.find? k' := by
  by_cases h : k' = k
  · simp [h]
  · simp [h, find?_erase_of_ne]

theorem find?_mapVal {β : Type v} (m : SortedMap κ α) (f : κ → α → β) (k : κ) :
    (m.mapVal f).find? k = (m.find? k).map (f k) := by
  apply Option.ext
  intro b
  rw [← mem_entries, Option.map_eq_some_iff]
  simp only [mapVal, List.mem_map, Prod.mk.injEq, Prod.exists, mem_entries]
  constructor
  · rintro ⟨k', a, ha, rfl, rfl⟩
    exact ⟨a, ha, rfl⟩
  · rintro ⟨a, ha, rfl⟩
    exact ⟨k, a, ha, rfl, rfl⟩

@[simp] theorem find?_modify_self (m : SortedMap κ α) (k : κ) (f : α → α) :
    (m.modify k f).find? k = (m.find? k).map f := by
  simp [modify, find?_mapVal]

theorem find?_modify_of_ne (m : SortedMap κ α) {k k' : κ} (f : α → α) (h : k' ≠ k) :
    (m.modify k f).find? k' = m.find? k' := by
  simp [modify, find?_mapVal, h]

theorem find?_modify (m : SortedMap κ α) (k k' : κ) (f : α → α) :
    (m.modify k f).find? k' = if k' = k then (m.find? k).map f else m.find? k' := by
  by_cases h : k' = k
  · simp [h]
  · simp [h, find?_modify_of_ne]

theorem mem_insertEntry_of_ne {k : κ} {a : α} {e : κ × α} {es : List (κ × α)}
    (h : e ∈ es) (hne : e.1 ≠ k) : e ∈ insertEntry k a es := by
  induction es with
  | nil => simp at h
  | cons e' es ih =>
      simp only [insertEntry]
      split
      · exact List.mem_cons_of_mem _ h
      · split
        · rcases List.mem_cons.mp h with h | h
          · exact h ▸ List.mem_cons_self
          · exact List.mem_cons_of_mem _ (ih h)
        · rename_i hk hk'
          rcases List.mem_cons.mp h with rfl | h
          · exact absurd (le_antisymm (not_lt.mp hk) (not_lt.mp hk')) hne
          · exact List.mem_cons_of_mem _ h

theorem mem_insertEntry_self (k : κ) (a : α) (es : List (κ × α)) :
    (k, a) ∈ insertEntry k a es := by
  induction es with
  | nil => simp [insertEntry]
  | cons e es ih => simp only [insertEntry]; split <;> [skip; split] <;> simp [ih]

@[simp] theorem find?_insert_self (m : SortedMap κ α) (k : κ) (a : α) :
    (m.insert k a).find? k = some a :=
  mem_entries.mp (mem_insertEntry_self k a m.entries)

theorem find?_insert_of_ne (m : SortedMap κ α) {k k' : κ} (a : α) (h : k' ≠ k) :
    (m.insert k a).find? k' = m.find? k' := by
  apply Option.ext
  intro b
  rw [← mem_entries, ← mem_entries]
  constructor
  · intro hb
    rcases mem_insertEntry_imp hb with heq | hb
    · exact absurd (congrArg Prod.fst heq) h
    · exact hb
  · exact fun hb => mem_insertEntry_of_ne hb h

theorem find?_insert (m : SortedMap κ α) (k k' : κ) (a : α) :
    (m.insert k a).find? k' = if k' = k then some a else m.find? k' := by
  by_cases h : k' = k
  · simp [h]
  · simp [h, find?_insert_of_ne]

theorem contains_insert (m : SortedMap κ α) (k k' : κ) (a : α) :
    (m.insert k a).contains k' = (decide (k' = k) || m.contains k') := by
  simp only [contains, find?_insert]
  split <;> simp_all

theorem contains_erase (m : SortedMap κ α) (k k' : κ) :
    (m.erase k).contains k' = (!decide (k' = k) && m.contains k') := by
  simp only [contains, find?_erase]
  split <;> simp_all

@[simp] theorem contains_modify (m : SortedMap κ α) (k k' : κ) (f : α → α) :
    (m.modify k f).contains k' = m.contains k' := by
  simp only [contains, find?_modify]
  split <;> simp_all

/-- **A map is determined by its lookups.** -/
theorem ext_find? {m m' : SortedMap κ α} (h : ∀ k, m.find? k = m'.find? k) : m = m' := by
  have hperm : m.entries.Perm m'.entries := by
    refine (List.perm_ext_iff_of_nodup ?_ ?_).mpr ?_
    · exact List.Nodup.of_map Prod.fst m.keys_nodup
    · exact List.Nodup.of_map Prod.fst m'.keys_nodup
    · rintro ⟨k, a⟩
      rw [mem_entries, mem_entries, h k]
  have heq : m.entries = m'.entries :=
    hperm.eq_of_pairwise (fun a b _ _ hab hba => absurd hab (lt_asymm hba)) m.sorted m'.sorted
  cases m; cases m'
  simpa using heq

theorem mapVal_insert {β : Type v} (m : SortedMap κ α) (f : κ → α → β) (k : κ) (a : α) :
    (m.insert k a).mapVal f = (m.mapVal f).insert k (f k a) := by
  apply ext_find?
  intro k'
  rw [find?_mapVal, find?_insert, find?_insert, find?_mapVal]
  split
  · rename_i hk
    rw [hk, Option.map_some]
  · rfl

/-- A change that can be made after a function as well. -/
theorem mapVal_modify {β : Type v} (m : SortedMap κ α) {f : κ → α → β} {k : κ} {g : α → α} {g' : β → β}
    (h : ∀ a, f k (g a) = g' (f k a)) : (m.modify k g).mapVal f = (m.mapVal f).modify k g' := by
  apply ext_find?
  intro k'
  rw [find?_mapVal, find?_modify, find?_modify, find?_mapVal, find?_mapVal]
  split
  · rename_i hk
    rw [hk, Option.map_map, Option.map_map]
    exact Option.map_congr fun a _ => h a
  · rfl

@[simp] theorem contains_mapVal {β : Type v} (m : SortedMap κ α) (f : κ → α → β) (k : κ) :
    (m.mapVal f).contains k = m.contains k := by
  rw [contains, contains, find?_mapVal, Option.isSome_map]

/-- Two maps with the same keys list the same, when what is listed only depends on the key. -/
theorem map_entries_congr {β : Type v} {m m' : SortedMap κ α} {f : κ → β} {g : α → β}
    (hkeys : ∀ k, m'.contains k = m.contains k) (hm : ∀ k a, m.find? k = some a → g a = f k)
    (hm' : ∀ k a, m'.find? k = some a → g a = f k) :
    m'.entries.map (fun e => g e.2) = m.entries.map fun e => g e.2 := by
  have hval : m'.mapVal (fun _ a => g a) = m.mapVal fun _ a => g a := by
    refine ext_find? fun k => ?_
    have hsome : (m'.find? k).isSome = (m.find? k).isSome := hkeys k
    rw [find?_mapVal, find?_mapVal]
    cases ha : m.find? k with
    | none =>
        have hnone : m'.find? k = none := by simpa [ha] using hsome
        rw [hnone]
    | some a =>
        obtain ⟨a', ha'⟩ := Option.isSome_iff_exists.mp (hsome.trans (by rw [ha]; rfl))
        rw [ha', Option.map_some, Option.map_some, hm k a ha, hm' k a' ha']
  have hlist := congrArg (fun m : SortedMap κ β => m.entries.map Prod.snd) hval
  simpa only [mapVal, List.map_map, Function.comp_def] using hlist

@[simp] theorem insert_erase_self (m : SortedMap κ α) (k : κ) (a : α) :
    (m.erase k).insert k a = m.insert k a := by
  apply ext_find?
  intro k'
  by_cases h : k' = k <;> simp [find?_insert, find?_erase, h]

@[simp] theorem erase_insert_self (m : SortedMap κ α) (k : κ) (a : α) :
    (m.insert k a).erase k = m.erase k := by
  apply ext_find?
  intro k'
  by_cases h : k' = k <;> simp [find?_insert, find?_erase, h]

theorem erase_of_find?_none {m : SortedMap κ α} {k : κ} (h : m.find? k = none) :
    m.erase k = m := by
  apply ext_find?
  intro k'
  by_cases hk : k' = k
  · simp [hk, h]
  · rw [find?_erase_of_ne m hk]

/-- Storing what is already stored changes nothing. -/
theorem insert_of_find?_some {m : SortedMap κ α} {k : κ} {a : α} (h : m.find? k = some a) :
    m.insert k a = m := by
  apply ext_find?
  intro k'
  by_cases hk : k' = k
  · simp [hk, h]
  · rw [find?_insert_of_ne m a hk]

/-! ## Keys above all others -/

theorem find?_none_of_lt {m : SortedMap κ α} {k : κ} (h : ∀ e ∈ m.entries, e.1 < k) : m.find? k = none := by
  rw [Option.eq_none_iff_forall_ne_some]
  intro a ha
  exact lt_irrefl k (h _ (mem_entries.mpr ha))

/-- An entry with a key above all others is the last one. -/
theorem entries_insert_of_lt {m : SortedMap κ α} {k : κ} {a : α} (h : ∀ e ∈ m.entries, e.1 < k) :
    (m.insert k a).entries = m.entries ++ [(k, a)] := by
  show insertEntry k a m.entries = m.entries ++ [(k, a)]
  generalize m.entries = es at h
  induction es with
  | nil => rfl
  | cons e es ih =>
      obtain ⟨he, hes⟩ := List.forall_mem_cons.mp h
      rw [insertEntry, if_neg (lt_asymm he), if_pos he, ih hes, List.cons_append]

/-! ## Counting entries -/

theorem insertEntry_perm {k : κ} (a : α) {es : List (κ × α)} (h : ∀ e ∈ es, e.1 ≠ k) :
    (insertEntry k a es).Perm ((k, a) :: es) := by
  induction es with
  | nil => simp [insertEntry]
  | cons e es ih =>
      simp only [insertEntry]
      split
      · exact .rfl
      · split
        · exact ((ih fun e' he' => h e' (List.mem_cons_of_mem _ he')).cons e).trans (.swap _ _ _)
        · rename_i hk hk'
          exact absurd (le_antisymm (not_lt.mp hk) (not_lt.mp hk')) (h e List.mem_cons_self)

/-- Inserting a new key adds one entry. -/
theorem entries_insert_perm {m : SortedMap κ α} {k : κ} (a : α) (h : m.find? k = none) :
    (m.insert k a).entries.Perm ((k, a) :: m.entries) := by
  apply insertEntry_perm
  rintro ⟨k', b⟩ he rfl
  rw [mem_entries.mp he] at h
  cases h

theorem countP_insert_new {m : SortedMap κ α} {k : κ} (a : α) (p : κ × α → Bool)
    (h : m.find? k = none) :
    (m.insert k a).entries.countP p = m.entries.countP p + if p (k, a) then 1 else 0 := by
  rw [(entries_insert_perm a h).countP_eq, List.countP_cons]

/-- **Counting with one entry set apart.** -/
theorem countP_erase_add {m : SortedMap κ α} {k : κ} {a : α} (p : κ × α → Bool)
    (h : m.find? k = some a) :
    m.entries.countP p = (m.erase k).entries.countP p + if p (k, a) then 1 else 0 := by
  have hm : m = (m.erase k).insert k a := by rw [insert_erase_self, insert_of_find?_some h]
  conv_lhs => rw [hm]
  rw [countP_insert_new a p (find?_erase_self m k)]

end SortedMap
end Aes67Daemon
