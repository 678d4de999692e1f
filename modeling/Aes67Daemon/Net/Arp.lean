import Aes67Daemon.Lib.Columns
import Aes67Daemon.Session.Streams
import Aes67Daemon.Session.Sdp

/-!
# The ARP cache

The hardware address of a unicast destination is looked up in `/proc/net/arp`.  The
lines that contain the text of the address are taken apart, and the first whose
hardware address is not zero is the answer.

## Main definitions

* `getMacFromArpCache` — the lookup; `none` when it writes past the end of the array.
* `ArpEntry`, `arpTable` — the table as the kernel writes it.
* `getMac_arpTable` — what the lookup finds in such a table.
* `ArpExact`, `arpExact_iff` — when it finds what it should.
-/
namespace Aes67Daemon

open Text

/-! ## The lookup -/

/-- The array the address is stored in, before the lookup. -/
def noMac : Mac := List.replicate 6 0

/-- The groups of a hardware address are stored from an index on, and checked for one that is
not zero; `none` when the array is too short. -/
def storeGroups : ℕ → List Text → Mac → Bool → Option (Mac × Bool)
  | _, [], mac, check => some (mac, check)
  | j, item :: vec, mac, check =>
    if j < mac.length then
      let b := UInt8.ofInt (strtolHex item)
      storeGroups (j + 1) vec (mac.set j b) (check || b ≠ 0)
    else none

/-- The loop over the lines. -/
def scanArp (ip : Text) : List Text → Mac → Option (Mac × Text)
  | [], mac => some (mac, [])
  | line :: lines, mac =>
    if ip <:+: line then
      let tokens := splitCompressed (· = ' ') line
      if 6 ≤ tokens.length then
        let macText := tokens.getD 3 []
        -- what is stored stays there if the check fails
        (storeGroups 0 (splitBy (· = ':') macText) mac false).bind fun r =>
          if r.2 then some (r.1, macText) else scanArp ip lines r.1
      else scanArp ip lines mac
    else scanArp ip lines mac

/-- `get_mac_from_arp_cache`; the file cannot always be opened.  The loop ends when a line
cannot be read any more, which leaves an empty one. -/
def getMacFromArpCache (file : Option Text) (ip : Text) : Option (Mac × Text) :=
  scanArp ip (file.elim [] fun t => getLines t ++ [[]]) noMac

/-! ## The table -/

/-- The text of a hardware address. -/
def macText (hw : List UInt8) : Text := [':'].intercalate (hw.map fun b => hexByte b.toNat)

/-- An entry of the table; the gaps are those after the first five columns. -/
structure ArpEntry where
  ip : UInt32
  hwType : ℕ
  flags : ℕ
  hwAddress : List UInt8
  device : Text
  gap : Fin 5 → ℕ
  hwAddress_ne : hwAddress ≠ []
  device_ne : device ≠ []
  device_blank : ' ' ∉ device
  device_newline : '\n' ∉ device

namespace ArpEntry

/-- A number as `0x%x`. -/
def hex (n : ℕ) : Text := '0' :: 'x' :: Nat.toDigits 16 n

/-- The line of an entry. -/
def line (e : ArpEntry) : Text :=
  columns ' ' [(Address.toText e.ip, e.gap 0), (hex e.hwType, e.gap 1), (hex e.flags, e.gap 2),
    (macText e.hwAddress, e.gap 3), (['*'], e.gap 4)] e.device

/-- The entry is complete, by the flag `ATF_COM`. -/
def complete (e : ArpEntry) : Bool := e.flags.testBit 1

/-- The array with the hardware address. -/
def mac (e : ArpEntry) : Mac := e.hwAddress ++ List.replicate (6 - e.hwAddress.length) 0

/-- The text of an address occurs in the entry: in the address or in the name of the device. -/
def Mentions (e : ArpEntry) (ip : UInt32) : Prop :=
  Address.toText ip <:+: Address.toText e.ip ∨ Address.toText ip <:+: e.device

instance (e : ArpEntry) (ip : UInt32) : Decidable (e.Mentions ip) :=
  inferInstanceAs (Decidable (_ ∨ _))

/-- The entry ends the scan: it mentions the address, and its hardware address is not all zero,
or too long. -/
def endsScan (ip : UInt32) (e : ArpEntry) : Bool :=
  e.Mentions ip ∧ (e.hwAddress.any (· ≠ 0) ∨ 6 < e.hwAddress.length)

/-- The entry is for the address, and complete. -/
def resolves (ip : UInt32) (e : ArpEntry) : Bool := e.complete ∧ e.ip = ip

end ArpEntry

/-- The first line. -/
def arpHeader : Text :=
  "IP address       HW type     Flags       HW address            Mask     Device".toList

/-- The content of `/proc/net/arp`. -/
def arpTable (entries : List ArpEntry) : Text := unlines (arpHeader :: entries.map ArpEntry.line)

/-! ## Hexadecimal digits -/

theorem strtolHex_hexByte (b : UInt8) : UInt8.ofInt (strtolHex (hexByte b.toNat)) = b := by
  have hall : ∀ n < 256, strtolHex (hexByte n) = n := by decide +kernel
  rw [hall b.toNat b.toNat_lt, uint8_ofInt_toNat]

/-- A hexadecimal digit is neither a separator nor a point. -/
theorem not_mem_toDigits16 {c : Char} (hc : ∀ n < 16, Nat.digitChar n ≠ c) (n : ℕ) :
    c ∉ Nat.toDigits 16 n := by
  induction n using Nat.strong_induction_on with
  | _ n ih =>
      by_cases hn : n < 16
      · rw [Nat.toDigits_of_lt_base hn, List.mem_singleton]
        exact fun h => hc n hn h.symm
      · rw [Nat.toDigits_of_base_le (by decide) (not_lt.mp hn), List.mem_append, List.mem_singleton]
        rintro (h | h)
        · exact ih (n / 16) (by omega) h
        · exact hc (n % 16) (by omega) h.symm

theorem not_mem_hexByte {c : Char} (hc : ∀ n < 16, Nat.digitChar n ≠ c) (n : ℕ) : c ∉ hexByte n := by
  intro h
  rcases List.mem_cons.mp h with h | h
  · exact hc _ (Nat.mod_lt _ (by decide)) h.symm
  · exact hc _ (Nat.mod_lt _ (by decide)) (List.mem_singleton.mp h).symm

theorem not_mem_macText {c : Char} (hc : ∀ n < 16, Nat.digitChar n ≠ c) (hcolon : c ≠ ':')
    (hw : List UInt8) : c ∉ macText hw := by
  intro h
  rcases mem_intercalate h with h | ⟨l, hl, h⟩
  · exact hcolon h
  · obtain ⟨b, -, rfl⟩ := List.mem_map.mp hl
    exact not_mem_hexByte hc _ h

/-- **The groups of a hardware address are told apart.** -/
theorem splitBy_macText {hw : List UInt8} (h : hw ≠ []) :
    splitBy (· = ':') (macText hw) = hw.map fun b => hexByte b.toNat := by
  refine splitBy_intercalate (fun l hl => ?_) (by simpa using h)
  obtain ⟨b, -, rfl⟩ := List.mem_map.mp hl
  exact not_mem_hexByte (by decide) _

/-- The text of a hardware address has all of it. -/
theorem macText_inj {hw hw' : List UInt8} (h : hw ≠ []) (h' : hw' ≠ []) :
    macText hw = macText hw' ↔ hw = hw' := by
  refine ⟨fun heq => ?_, fun heq => heq ▸ rfl⟩
  have hgroups := congrArg (fun t => (splitBy (· = ':') t).map fun g => UInt8.ofInt (strtolHex g)) heq
  simpa [splitBy_macText h, splitBy_macText h', Function.comp_def, strtolHex_hexByte] using hgroups

theorem macText_ne_nil {hw : List UInt8} (h : hw ≠ []) : macText hw ≠ [] := by
  intro hnil
  have hgroups := splitBy_macText h
  rw [hnil, splitBy_eq_singleton (by simp)] at hgroups
  obtain ⟨b, hw, rfl⟩ := List.exists_cons_of_ne_nil h
  cases (List.cons.inj hgroups).1

/-! ## A line -/

namespace ArpEntry

/-- What the columns of an entry are. -/
theorem isColumn (e : ArpEntry) : ∀ g ∈ [(Address.toText e.ip, e.gap 0), (hex e.hwType, e.gap 1),
    (hex e.flags, e.gap 2), (macText e.hwAddress, e.gap 3), (['*'], e.gap 4)], IsColumn ' ' g.1 := by
  have hblank : ∀ n < 16, Nat.digitChar n ≠ ' ' := by decide
  have hhex : ∀ n, IsColumn ' ' (hex n) := fun n => by
    refine ⟨List.cons_ne_nil _ _, ?_⟩
    simp [hex, not_mem_toDigits16 hblank]
  have hip : IsColumn ' ' (Address.toText e.ip) :=
    ⟨by simp [Address.toText], Address.not_mem_toText (by decide) (by decide) _⟩
  have hmac : IsColumn ' ' (macText e.hwAddress) :=
    ⟨macText_ne_nil e.hwAddress_ne, not_mem_macText hblank (by decide) _⟩
  simp only [List.forall_mem_cons, List.not_mem_nil, false_implies, implies_true, and_true]
  exact ⟨hip, hhex _, hhex _, hmac, by decide, by decide⟩

/-- The tokens of a line. -/
theorem splitCompressed_line (e : ArpEntry) : splitCompressed (· = ' ') e.line =
    [Address.toText e.ip, hex e.hwType, hex e.flags, macText e.hwAddress, ['*'], e.device] :=
  splitCompressed_columns e.isColumn ⟨e.device_ne, e.device_blank⟩

/-- An address has a point, and no other column but the first and the last can have one. -/
theorem isInfix_line_iff (e : ArpEntry) (ip : UInt32) :
    Address.toText ip <:+: e.line ↔ e.Mentions ip := by
  have hdot : '.' ∈ Address.toText ip := by simp [Address.toText]
  have hnone : ∀ t : Text, '.' ∉ t → ¬ Address.toText ip <:+: t := fun t ht h => ht (h.subset hdot)
  have hpoint : ∀ n < 16, Nat.digitChar n ≠ '.' := by decide
  have hhex : ∀ n, '.' ∉ hex n := fun n => by simp [hex, not_mem_toDigits16 hpoint]
  rw [line, isInfix_columns_iff (Address.not_mem_toText (by decide) (by decide) _) (by simp [Address.toText]),
    Mentions]
  refine or_congr_left ?_
  simp [hnone _ (hhex _), hnone _ (not_mem_macText hpoint (by decide) _), hnone ['*'] (by decide)]

end ArpEntry

/-! ## What is found -/

/-- The groups of an address are stored if there is room for them. -/
theorem storeGroups_map (hw : List UInt8) (mac : Mac) (n : ℕ) (check : Bool) :
    storeGroups mac.length (hw.map fun b => hexByte b.toNat) (mac ++ List.replicate n 0) check =
      if hw.length ≤ n then
        some (mac ++ hw ++ List.replicate (n - hw.length) 0, check || hw.any (· ≠ 0))
      else none := by
  induction hw generalizing mac n check with
  | nil => simp [storeGroups]
  | cons b hw ih =>
      rw [List.map_cons, storeGroups, List.length_append, List.length_replicate]
      cases n with
      | zero => simp
      | succ n =>
          have hset : (mac ++ List.replicate (n + 1) 0).set mac.length b =
              (mac ++ [b]) ++ List.replicate n 0 := by
            simp [List.replicate_succ]
          have hlength : mac.length + 1 = (mac ++ [b]).length := by simp
          rw [if_pos (by omega), strtolHex_hexByte]
          dsimp only
          rw [hset, hlength, ih]
          simp [Bool.or_assoc]

/-- One entry: the scan ends there, or goes on with nothing stored. -/
theorem scanArp_line (ip : UInt32) (e : ArpEntry) (lines : List Text) :
    scanArp (Address.toText ip) (e.line :: lines) noMac =
      if e.endsScan ip then
        if e.hwAddress.length ≤ 6 then some (e.mac, macText e.hwAddress) else none
      else scanArp (Address.toText ip) lines noMac := by
  have hstore : storeGroups 0 (e.hwAddress.map fun b => hexByte b.toNat) noMac false =
      if e.hwAddress.length ≤ 6 then some (e.mac, e.hwAddress.any (· ≠ 0)) else none :=
    storeGroups_map e.hwAddress [] 6 false
  rw [scanArp, ArpEntry.endsScan]
  by_cases hmentions : e.Mentions ip
  · have hlength : 6 ≤ [Address.toText e.ip, ArpEntry.hex e.hwType, ArpEntry.hex e.flags,
        macText e.hwAddress, ['*'], e.device].length := le_rfl
    rw [if_pos ((e.isInfix_line_iff ip).mpr hmentions), e.splitCompressed_line]
    dsimp only
    rw [if_pos hlength, List.getD_cons_succ, List.getD_cons_succ, List.getD_cons_succ, List.getD_cons_zero,
      splitBy_macText e.hwAddress_ne, hstore]
    by_cases hroom : e.hwAddress.length ≤ 6
    · rw [if_pos hroom, Option.bind_some]
      cases hany : e.hwAddress.any (· ≠ 0) with
      | true => simp [hmentions, hroom]
      | false =>
          -- an address that is all zero leaves the array as it was
          have hzero : e.mac = noMac := by
            have hall : e.hwAddress = List.replicate e.hwAddress.length 0 :=
              List.eq_replicate_of_mem fun b hb => by
                simpa using List.any_eq_false.mp hany b hb
            rw [ArpEntry.mac, hall, List.length_replicate, List.replicate_append_replicate, noMac]
            congr 1
            omega
          simp [hzero, not_lt.mpr hroom]
    · rw [if_neg hroom, if_pos (by simp [hmentions, not_le.mp hroom]), if_neg hroom]
      rfl
  · rw [if_neg (mt (e.isInfix_line_iff ip).mp hmentions), if_neg (by simp [hmentions])]

/-- The header is passed over, as is the line that cannot be read. -/
theorem scanArp_other {ip : UInt32} {line : Text} (h : '.' ∉ line) (lines : List Text) (mac : Mac) :
    scanArp (Address.toText ip) (line :: lines) mac = scanArp (Address.toText ip) lines mac := by
  have hdot : '.' ∈ Address.toText ip := by simp [Address.toText]
  rw [scanArp, if_neg fun hline => h (hline.subset hdot)]

/-- The lines of the table. -/
theorem getLines_arpTable (entries : List ArpEntry) :
    getLines (arpTable entries) = arpHeader :: entries.map ArpEntry.line := by
  have hdigit : ∀ n < 16, Nat.digitChar n ≠ '\n' := by decide
  have hhex : ∀ n, '\n' ∉ ArpEntry.hex n := fun n => by simp [ArpEntry.hex, not_mem_toDigits16 hdigit]
  refine getLines_unlines fun l hl => ?_
  rcases List.mem_cons.mp hl with rfl | hl
  · decide
  · obtain ⟨e, -, rfl⟩ := List.mem_map.mp hl
    intro hmem
    rcases mem_columns hmem with h | ⟨g, hg, h⟩ | h
    · cases h
    · revert h
      simp only [List.mem_cons, List.not_mem_nil, or_false] at hg
      rcases hg with rfl | rfl | rfl | rfl | rfl
      · exact Address.not_mem_toText (by decide) (by decide) _
      · exact hhex _
      · exact hhex _
      · exact not_mem_macText hdigit (by decide) _
      · intro h
        exact absurd (List.mem_singleton.mp h) (by decide)
    · exact e.device_newline h

/-- **What the lookup finds**: the first entry that ends the scan. -/
theorem getMac_arpTable (entries : List ArpEntry) (ip : UInt32) :
    getMacFromArpCache (some (arpTable entries)) (Address.toText ip) =
      (entries.find? (ArpEntry.endsScan ip)).elim (some (noMac, [])) fun e =>
        if e.hwAddress.length ≤ 6 then some (e.mac, macText e.hwAddress) else none := by
  rw [getMacFromArpCache, Option.elim_some, getLines_arpTable, List.cons_append,
    scanArp_other (by decide)]
  induction entries with
  | nil =>
      rw [List.map_nil, List.nil_append, scanArp_other List.not_mem_nil]
      rfl
  | cons e entries ih =>
      rw [List.map_cons, List.cons_append, scanArp_line, ih, List.find?_cons]
      cases e.endsScan ip <;> rfl

/-! ## When it is right -/

/-- **The lookup is exact**: it finds the hardware address of the first complete entry of the
address, and nothing if there is none; and it writes nothing past the array. -/
def ArpExact (entries : List ArpEntry) (ip : UInt32) : Prop :=
  getMacFromArpCache (some (arpTable entries)) (Address.toText ip) =
    some ((entries.find? (ArpEntry.resolves ip)).elim (noMac, []) fun e => (e.mac, macText e.hwAddress))

/-- The entry that ends the scan has an address that fits, and it is that of the entry that
resolves the address; or there is neither. -/
def ArpAgrees (entries : List ArpEntry) (ip : UInt32) : Prop :=
  (entries.find? (ArpEntry.endsScan ip)).map ArpEntry.hwAddress =
      (entries.find? (ArpEntry.resolves ip)).map ArpEntry.hwAddress ∧
    ∀ e ∈ entries.find? (ArpEntry.endsScan ip), e.hwAddress.length ≤ 6

/-- **When the lookup is exact.** -/
theorem arpExact_iff (entries : List ArpEntry) (ip : UInt32) :
    ArpExact entries ip ↔ ArpAgrees entries ip := by
  rw [ArpExact, ArpAgrees, getMac_arpTable]
  generalize entries.find? (ArpEntry.endsScan ip) = ended
  generalize entries.find? (ArpEntry.resolves ip) = resolved
  cases ended with
  | none =>
      cases resolved with
      | none => simp
      | some e => simp [(macText_ne_nil e.hwAddress_ne).symm]
  | some e =>
      by_cases hroom : e.hwAddress.length ≤ 6
      · cases resolved with
        | none => simp [hroom, macText_ne_nil e.hwAddress_ne]
        | some e' =>
            have hmac : e.hwAddress = e'.hwAddress → e.mac = e'.mac := fun h => by
              rw [ArpEntry.mac, ArpEntry.mac, h]
            simp only [Option.elim_some, hroom, if_true, Option.some.injEq, Prod.mk.injEq,
              macText_inj e.hwAddress_ne e'.hwAddress_ne, Option.map_some, Option.mem_def, forall_eq',
              and_true]
            exact ⟨fun h => h.2, fun h => ⟨hmac h, h⟩⟩
      · simp [hroom]

/-- An entry of an Ethernet device, with the flags of a complete one. -/
def ethernetEntry (ip : UInt32) (mac : UInt8 × UInt8 × UInt8 × UInt8 × UInt8 × UInt8) : ArpEntry where
  ip := ip
  hwType := 1
  flags := 2
  hwAddress := [mac.1, mac.2.1, mac.2.2.1, mac.2.2.2.1, mac.2.2.2.2.1, mac.2.2.2.2.2]
  device := "eth0".toList
  gap := fun i => [16 - (Address.toText ip).length, 9, 9, 4, 7].getD i 0
  hwAddress_ne := List.cons_ne_nil _ _
  device_ne := by decide
  device_blank := by decide
  device_newline := by decide

/-- The entry of 10.0.0.11 is found for 10.0.0.1. -/
theorem neighbour_found : ¬ ArpExact
    [ethernetEntry 0x0a00000b (2, 0, 0, 0, 0, 11), ethernetEntry 0x0a000001 (2, 0, 0, 0, 0, 1)] 0x0a000001 := by
  unfold ArpExact
  decide +kernel

end Aes67Daemon
