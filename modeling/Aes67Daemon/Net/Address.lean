import Aes67Daemon.Lib.Decimal
import Mathlib.Tactic.IntervalCases

/-!
# IPv4 addresses

An address is the 32-bit word `ip::address_v4::to_ulong` returns, most
significant octet first.  Its text is the dotted quad, and reading a text back
accepts what `inet_pton` accepts: four decimal octets without leading zeros.

## Main definitions

* `Address.toText`, `Address.ofText` — `address_v4::to_string` and `from_string`.
* `Address.inMulticast` — the `IN_MULTICAST` macro.
* `Address.ofText_toText`, `Address.ofText_eq_some_iff` — what is printed is read back, and nothing else is read.
-/
namespace Aes67Daemon

open Text

/-- A hardware address, as its bytes. -/
abbrev Mac := List UInt8

namespace Address

/-- The four octets, most significant first. -/
def octet (a : UInt32) : Fin 4 → ℕ
  | 0 => a.toNat / 2 ^ 24
  | 1 => a.toNat / 2 ^ 16 % 256
  | 2 => a.toNat / 2 ^ 8 % 256
  | 3 => a.toNat % 256

/-- `ip::address_v4::to_string`. -/
def toText (a : UInt32) : Text :=
  ofNat (octet a 0) ++ '.' :: (ofNat (octet a 1) ++ '.' ::
    (ofNat (octet a 2) ++ '.' :: ofNat (octet a 3)))

/-- One octet of a dotted quad. -/
def readOctet (t : Text) : Option ℕ :=
  if t ≠ [] ∧ t.all Char.isDigit ∧ (t.head? = some '0' → t.length = 1) ∧ digitsValue t ≤ 255
  then some (digitsValue t) else none

/-- `ip::address_v4::from_string` of a C string, by `inet_pton`.  `none` is the
error code of one overload and the exception of the other. -/
def ofText (t : Text) : Option UInt32 :=
  match (upToNul t).splitOn '.' with
  | [a, b, c, d] => do
      let a ← readOctet a
      let b ← readOctet b
      let c ← readOctet c
      let d ← readOctet d
      pure (UInt32.ofNat (a * 2 ^ 24 + b * 2 ^ 16 + c * 2 ^ 8 + d))
  | _ => none

/-- `IN_MULTICAST`: the class D addresses. -/
def inMulticast (a : UInt32) : Bool := (a &&& (0xf0000000 : UInt32)) == 0xe0000000

/-- `INADDR_NONE`, the limited broadcast address. -/
def inaddrNone : UInt32 := 0xffffffff

/-- `htonl` on a little-endian host. -/
def htonl (a : UInt32) : UInt32 :=
  (a <<< 24) ||| ((a &&& (0xff00 : UInt32)) <<< 8) ||| ((a >>> 8) &&& (0xff00 : UInt32)) |||
    (a >>> 24)

/-- `get_mcast_mac_addr`: 01:00:5e and the low 23 bits of the address. -/
def mcastMacAddr (a : UInt32) : Mac :=
  [0x01, 0x00, 0x5e, ((a >>> 16) &&& (0x7f : UInt32)).toUInt8, (a >>> 8).toUInt8, a.toUInt8]

/-! ## Printing and reading back -/

theorem octet_le (a : UInt32) (i : Fin 4) : octet a i ≤ 255 := by
  have ha := a.toNat_lt
  match i with
  | 0 => simp only [octet]; omega
  | 1 | 2 | 3 => simp only [octet]; omega

theorem readOctet_ofNat {n : ℕ} (h : n ≤ 255) : readOctet (ofNat n) = some n := by
  have hall : (ofNat n).all Char.isDigit = true :=
    List.all_eq_true.mpr fun c hc => digits_isDigit hc
  simp only [readOctet, ne_eq, ofNat_ne_nil, not_false_eq_true, hall, digitsValue_ofNat, h,
    and_true, true_and]
  rw [if_pos head?_ofNat]

/-- The octets put together again. -/
theorem octets_value (a : UInt32) :
    UInt32.ofNat (octet a 0 * 2 ^ 24 + octet a 1 * 2 ^ 16 + octet a 2 * 2 ^ 8 + octet a 3) = a := by
  have ha := a.toNat_lt
  have hsum : octet a 0 * 2 ^ 24 + octet a 1 * 2 ^ 16 + octet a 2 * 2 ^ 8 + octet a 3
      = a.toNat := by
    simp only [octet]; omega
  rw [hsum, UInt32.ofNat_toNat]

theorem not_mem_toText {c : Char} (hd : c.isDigit = false) (hc : c ≠ '.') (a : UInt32) :
    c ∉ toText a := by
  simp [toText, not_mem_ofNat hd, hc]

theorem upToNul_toText (a : UInt32) : upToNul (toText a) = toText a :=
  upToNul_eq_self_iff.mpr (not_mem_toText (by decide) (by decide) a)

/-- **A printed address is read back.** -/
@[simp] theorem ofText_toText (a : UInt32) : ofText (toText a) = some a := by
  have hdot : ∀ n, '.' ∉ ofNat n := not_mem_ofNat (by decide)
  have hsplit : (toText a).splitOn '.' =
      [ofNat (octet a 0), ofNat (octet a 1), ofNat (octet a 2), ofNat (octet a 3)] := by
    simp only [toText]
    rw [List.splitOn_append_cons_self_of_not_mem (hdot _),
      List.splitOn_append_cons_self_of_not_mem (hdot _),
      List.splitOn_append_cons_self_of_not_mem (hdot _), List.splitOn_eq_singleton (hdot _)]
  simp only [ofText, upToNul_toText, hsplit, readOctet_ofNat (octet_le a _), Option.bind_eq_bind,
    Option.bind_some, octets_value]
  rfl

theorem readOctet_eq_some {t : Text} {n : ℕ} (h : readOctet t = some n) : t = ofNat n ∧ n ≤ 255 := by
  obtain ⟨⟨hne, hall, hzero, hle⟩, hn⟩ := Option.ite_none_right_eq_some.mp h
  obtain rfl := Option.some.inj hn
  exact ⟨(ofNat_digitsValue hne (List.all_eq_true.mp hall) hzero).symm, hle⟩

theorem toText_octets {a b c d : ℕ} (ha : a ≤ 255) (hb : b ≤ 255) (hc : c ≤ 255) (hd : d ≤ 255) :
    toText (UInt32.ofNat (a * 2 ^ 24 + b * 2 ^ 16 + c * 2 ^ 8 + d)) =
      ofNat a ++ '.' :: (ofNat b ++ '.' :: (ofNat c ++ '.' :: ofNat d)) := by
  have hval : (UInt32.ofNat (a * 2 ^ 24 + b * 2 ^ 16 + c * 2 ^ 8 + d)).toNat = a * 2 ^ 24 + b * 2 ^ 16 + c * 2 ^ 8 + d := by
    rw [UInt32.toNat_ofNat']
    omega
  have h0 : octet (UInt32.ofNat (a * 2 ^ 24 + b * 2 ^ 16 + c * 2 ^ 8 + d)) 0 = a := by
    simp only [octet, hval]
    omega
  have h1 : octet (UInt32.ofNat (a * 2 ^ 24 + b * 2 ^ 16 + c * 2 ^ 8 + d)) 1 = b := by
    simp only [octet, hval]
    omega
  have h2 : octet (UInt32.ofNat (a * 2 ^ 24 + b * 2 ^ 16 + c * 2 ^ 8 + d)) 2 = c := by
    simp only [octet, hval]
    omega
  have h3 : octet (UInt32.ofNat (a * 2 ^ 24 + b * 2 ^ 16 + c * 2 ^ 8 + d)) 3 = d := by
    simp only [octet, hval]
    omega
  rw [toText, h0, h1, h2, h3]

/-- **A text is read as an address if it is the printed one**, up to a NUL. -/
theorem ofText_eq_some_iff {t : Text} {a : UInt32} : ofText t = some a ↔ upToNul t = toText a := by
  constructor
  · intro h
    unfold ofText at h
    split at h
    · rename_i a b c d hsplit
      obtain ⟨na, ha, hbcd⟩ := Option.bind_eq_some_iff.mp h
      obtain ⟨nb, hb, hcd⟩ := Option.bind_eq_some_iff.mp hbcd
      obtain ⟨nc, hc, hlast⟩ := Option.bind_eq_some_iff.mp hcd
      obtain ⟨nd, hd, hword⟩ := Option.bind_eq_some_iff.mp hlast
      obtain ⟨rfl, hla⟩ := readOctet_eq_some ha
      obtain ⟨rfl, hlb⟩ := readOctet_eq_some hb
      obtain ⟨rfl, hlc⟩ := readOctet_eq_some hc
      obtain ⟨rfl, hld⟩ := readOctet_eq_some hd
      obtain rfl := Option.some.inj hword
      have hjoin : ['.'].intercalate ((upToNul t).splitOn '.') = upToNul t := List.intercalate_splitOn '.'
      rw [toText_octets hla hlb hlc hld, ← hjoin, hsplit]
      simp [List.intercalate]
    · cases h
  · intro h
    rw [← ofText_toText a]
    unfold ofText
    rw [h, upToNul_toText]

/-- A text is an address. -/
def IsAddress (t : Text) : Prop := ∃ a, t = toText a

/-- These are the texts that are read, but for those that go on after a NUL. -/
theorem isAddress_iff {t : Text} : IsAddress t ↔ (ofText t).isSome = true ∧ '\x00' ∉ t := by
  constructor
  · rintro ⟨a, rfl⟩
    exact ⟨by rw [ofText_toText, Option.isSome_some], not_mem_toText (by decide) (by decide) a⟩
  · rintro ⟨hread, hnul⟩
    obtain ⟨a, ha⟩ := Option.isSome_iff_exists.mp hread
    exact ⟨a, (upToNul_eq_self_iff.mpr hnul).symm.trans (ofText_eq_some_iff.mp ha)⟩

theorem noSpaceLast_toText (a : UInt32) : NoSpaceLast (toText a) := by
  simp only [toText]
  exact ((((noSpaceLast_ofNat _).cons '.').append _).cons '.').append _ |>.cons '.' |>.append _

@[simp] theorem toText_ne_nil (a : UInt32) : toText a ≠ [] := by simp [toText]

end Address
end Aes67Daemon
