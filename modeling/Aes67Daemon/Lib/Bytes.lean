import Mathlib.Data.List.Basic
import Mathlib.Data.UInt
import Mathlib.Tactic.Ring

/-!
# Words as bytes

A buffer is the list of its bytes.  A word that is copied into a buffer stands there
in the byte order of the host, and on the wire most significant byte first.

## Main definitions

* `Bytes.ofNat`, `Bytes.value` — the bytes of a number, least significant first.
* `ByteOrder.store`, `ByteOrder.load` — a word in the memory of a host.
* `ByteOrder.htonl`, `ByteOrder.ntohl` — between a host and the wire.
* `overwrite` — `memcpy` into a buffer.
* `writeBytes`, `slice`, `readBytes` — writing into a buffer, bytes of it, and reading them.
-/
namespace Aes67Daemon

namespace Bytes

/-- The bytes of a number, least significant first; what does not fit is dropped. -/
def ofNat : ℕ → ℕ → List UInt8
  | 0, _ => []
  | w + 1, n => UInt8.ofNat n :: ofNat w (n / 256)

/-- The number with these bytes. -/
def value : List UInt8 → ℕ
  | [] => 0
  | b :: bs => b.toNat + 256 * value bs

@[simp] theorem length_ofNat (w n : ℕ) : (ofNat w n).length = w := by
  induction w generalizing n with
  | zero => rfl
  | succ w ih => simp [ofNat, ih]

theorem value_ofNat {w n : ℕ} (h : n < 256 ^ w) : value (ofNat w n) = n := by
  induction w generalizing n with
  | zero =>
      have hn : n = 0 := by simpa using h
      rw [ofNat, value, hn]
  | succ w ih =>
      have hdiv : n / 256 < 256 ^ w := by
        rw [pow_succ] at h
        omega
      rw [ofNat, value, ih hdiv, UInt8.toNat_ofNat']
      omega

theorem value_lt (bs : List UInt8) : value bs < 256 ^ bs.length := by
  induction bs with
  | nil => simp [value]
  | cons b bs ih =>
      have hb := b.toNat_lt
      rw [value, List.length_cons, pow_succ]
      omega

theorem ofNat_value (bs : List UInt8) : ofNat bs.length (value bs) = bs := by
  induction bs with
  | nil => rfl
  | cons b bs ih =>
      have hb := b.toNat_lt
      have hhead : UInt8.ofNat (b.toNat + 256 * value bs) = b := by
        apply UInt8.toNat_inj.mp
        rw [UInt8.toNat_ofNat']
        omega
      have htail : (b.toNat + 256 * value bs) / 256 = value bs := by omega
      rw [List.length_cons, value, ofNat, hhead, htail, ih]

end Bytes

/-- The byte order of a host. -/
inductive ByteOrder
  | little
  | big
  deriving DecidableEq

namespace ByteOrder

/-- The bytes in the order of the host, from those least significant first, and back. -/
def arrange : ByteOrder → List UInt8 → List UInt8
  | little, bs => bs
  | big, bs => bs.reverse

/-- A word of `w` bytes in memory. -/
def store (o : ByteOrder) (w n : ℕ) : List UInt8 := o.arrange (Bytes.ofNat w n)

/-- The word these bytes of memory hold. -/
def load (o : ByteOrder) (bs : List UInt8) : ℕ := Bytes.value (o.arrange bs)

@[simp] theorem length_arrange (o : ByteOrder) (bs : List UInt8) :
    (o.arrange bs).length = bs.length := by
  cases o with
  | little => rfl
  | big => exact List.length_reverse

@[simp] theorem arrange_arrange (o : ByteOrder) (bs : List UInt8) : o.arrange (o.arrange bs) = bs := by
  cases o with
  | little => rfl
  | big => exact List.reverse_reverse bs

@[simp] theorem length_store (o : ByteOrder) (w n : ℕ) : (o.store w n).length = w := by
  simp [store]

/-- **A word is read back.** -/
theorem load_store (o : ByteOrder) {w n : ℕ} (h : n < 256 ^ w) : o.load (o.store w n) = n := by
  rw [load, store, arrange_arrange, Bytes.value_ofNat h]

theorem load_lt (o : ByteOrder) (bs : List UInt8) : o.load bs < 256 ^ bs.length := by
  simpa [load] using Bytes.value_lt (o.arrange bs)

theorem store_load (o : ByteOrder) (bs : List UInt8) : o.store bs.length (o.load bs) = bs := by
  have h := Bytes.ofNat_value (o.arrange bs)
  rw [length_arrange] at h
  rw [store, load, h, arrange_arrange]

/-- `htonl`: the word whose bytes in memory are those of `a` on the wire. -/
def htonl (o : ByteOrder) (a : UInt32) : UInt32 := UInt32.ofNat (o.load (big.store 4 a.toNat))

/-- `ntohl`. -/
def ntohl (o : ByteOrder) (a : UInt32) : UInt32 := UInt32.ofNat (big.load (o.store 4 a.toNat))

theorem toNat_htonl (o : ByteOrder) (a : UInt32) :
    (o.htonl a).toNat = o.load (big.store 4 a.toNat) := by
  have h := o.load_lt (big.store 4 a.toNat)
  rw [length_store] at h
  exact UInt32.toNat_ofNat_of_lt' h

/-- In memory the word is as it is on the wire. -/
theorem store_htonl (o : ByteOrder) (a : UInt32) :
    o.store 4 (o.htonl a).toNat = big.store 4 a.toNat := by
  have h := o.store_load (big.store 4 a.toNat)
  rw [length_store] at h
  rw [toNat_htonl, h]

/-- **What one host puts on the wire another reads.** -/
theorem ntohl_htonl (o : ByteOrder) (a : UInt32) : o.ntohl (o.htonl a) = a := by
  rw [ntohl, store_htonl, load_store big a.toNat_lt, UInt32.ofNat_toNat]

end ByteOrder

/-! ## Copying into a buffer -/

/-- `memcpy` of some bytes to an offset of a buffer. -/
def overwrite (buffer : List UInt8) (offset : ℕ) (src : List UInt8) : List UInt8 :=
  buffer.take offset ++ src ++ buffer.drop (offset + src.length)

/-- Bytes that fit do not change the size of the buffer. -/
theorem length_overwrite {buffer src : List UInt8} {offset : ℕ}
    (h : offset + src.length ≤ buffer.length) :
    (overwrite buffer offset src).length = buffer.length := by
  simp only [overwrite, List.length_append, List.length_take, List.length_drop]
  omega

theorem take_overwrite {buffer src : List UInt8} {offset : ℕ} (h : offset + src.length ≤ buffer.length) :
    (overwrite buffer offset src).take (offset + src.length) = buffer.take offset ++ src :=
  List.take_left' (by simp [(Nat.le_add_right _ _).trans h])

/-- Copy some bytes to an offset of a buffer; `none` is a write past the end. -/
def writeBytes (buffer : List UInt8) (offset : ℕ) (src : List UInt8) : Option (List UInt8) :=
  if offset + src.length ≤ buffer.length then some (overwrite buffer offset src) else none

/-- What is copied behind the bytes already written extends them. -/
theorem overwrite_append {written rest src : List UInt8} {offset : ℕ}
    (h : offset = written.length) :
    overwrite (written ++ rest) offset src = (written ++ src) ++ rest.drop src.length := by
  subst h
  simp [overwrite]

/-! ## Reading from a buffer -/

/-- The `len` bytes from `pos` on, as far as there are any. -/
def slice (bytes : List UInt8) (pos len : ℕ) : List UInt8 := (bytes.drop pos).take len

/-- Read `len` bytes from `pos` on; `none` is a read past the end. -/
def readBytes (buffer : List UInt8) (pos len : ℕ) : Option (List UInt8) :=
  if pos + len ≤ buffer.length then some (slice buffer pos len) else none

theorem length_slice (bytes : List UInt8) (pos len : ℕ) :
    (slice bytes pos len).length = min len (bytes.length - pos) := by
  rw [slice, List.length_take, List.length_drop]

/-- A piece of what is put together from pieces of one length. -/
theorem slice_flatten {pieces : List (List UInt8)} {len k : ℕ} (hlen : ∀ piece ∈ pieces, piece.length = len)
    (hk : k < pieces.length) : slice pieces.flatten (len * k) len = pieces[k] := by
  induction pieces generalizing k with
  | nil => exact absurd hk (Nat.not_lt_zero _)
  | cons piece pieces ih =>
      obtain ⟨hpiece, hrest⟩ := List.forall_mem_cons.mp hlen
      cases k with
      | zero => simp [slice, ← hpiece]
      | succ k =>
          have hk := ih hrest (Nat.lt_of_succ_lt_succ hk)
          rw [slice] at hk
          rw [slice, List.flatten_cons, Nat.mul_succ, Nat.add_comm, ← hpiece, ← List.drop_drop, List.drop_left, hpiece, hk]
          rfl

theorem slice_slice (bytes : List UInt8) (a b : ℕ) {n k : ℕ} (h : b + k ≤ n) :
    slice (slice bytes a n) b k = slice bytes (a + b) k := by
  rw [slice, slice, slice, List.drop_take, List.take_take, List.drop_drop, min_eq_left (by omega)]

/-- What has been copied into a buffer is read back. -/
theorem slice_overwrite {buffer src : List UInt8} {offset pos len : ℕ} (hoffset : offset ≤ buffer.length)
    (h : pos + len ≤ src.length) : slice (overwrite buffer offset src) (offset + pos) len = slice src pos len := by
  have htake : (buffer.take offset).length = offset := List.length_take_of_le hoffset
  rw [slice, slice, overwrite, List.append_assoc, ← List.drop_drop, List.drop_append_of_le_length htake.ge,
    List.drop_eq_nil_of_le htake.le, List.nil_append, List.drop_append_of_le_length (by omega),
    List.take_append_of_le_length (by rw [List.length_drop]; omega)]

/-- All the pieces of what is put together from pieces of one length. -/
theorem map_slice_flatten {pieces : List (List UInt8)} {len : ℕ} (hlen : ∀ piece ∈ pieces, piece.length = len) :
    ((List.range pieces.length).map fun k => slice pieces.flatten (k * len) len) = pieces := by
  apply List.ext_getElem
  · simp
  intro k _ hk
  rw [List.getElem_map, List.getElem_range, Nat.mul_comm, slice_flatten hlen hk]

/-- What is in a buffer can be copied there. -/
theorem overwrite_slice {buffer : List UInt8} {offset len : ℕ} (h : offset + len ≤ buffer.length) :
    overwrite buffer offset (slice buffer offset len) = buffer := by
  have hlen : (slice buffer offset len).length = len := by
    rw [length_slice]
    omega
  rw [overwrite, hlen, slice, List.append_assoc, ← List.drop_drop, List.take_append_drop, List.take_append_drop]

/-- What is copied behind a piece makes it longer. -/
theorem slice_overwrite_append {buffer src : List UInt8} {pos len : ℕ} (h : pos + len + src.length ≤ buffer.length) :
    slice (overwrite buffer (pos + len) src) pos (len + src.length) = slice buffer pos len ++ src := by
  have hpos : pos ≤ (buffer.take (pos + len)).length := by
    rw [List.length_take]
    omega
  have hlen : (slice buffer pos len ++ src).length = len + src.length := by
    rw [List.length_append, length_slice]
    omega
  rw [slice, overwrite, List.append_assoc, List.drop_append_of_le_length hpos, List.drop_take, Nat.add_sub_cancel_left,
    ← List.append_assoc]
  exact List.take_left' hlen

/-- Read from some positions in turn. -/
def readAll (buffer : List UInt8) (len : ℕ) : List ℕ → Option (List UInt8)
  | [] => some []
  | pos :: rest => (readBytes buffer pos len).bind fun bytes => (readAll buffer len rest).map (bytes ++ ·)

theorem readAll_eq_some_iff {buffer : List UInt8} {len : ℕ} {positions : List ℕ} {bytes : List UInt8} :
    readAll buffer len positions = some bytes ↔
      (∀ pos ∈ positions, pos + len ≤ buffer.length) ∧ bytes = positions.flatMap fun pos => slice buffer pos len := by
  induction positions generalizing bytes with
  | nil => simp [readAll, eq_comm]
  | cons pos rest ih =>
      rw [readAll, readBytes, List.forall_mem_cons, List.flatMap_cons, and_assoc]
      split
      · rename_i hpos
        rw [Option.bind_some, Option.map_eq_some_iff]
        simp only [ih, hpos, true_and]
        constructor
        · rintro ⟨later, ⟨hrest, rfl⟩, rfl⟩
          exact ⟨hrest, rfl⟩
        · rintro ⟨hrest, rfl⟩
          exact ⟨_, ⟨hrest, rfl⟩, rfl⟩
      · rename_i hpos
        simp [hpos]

end Aes67Daemon
