import Aes67Daemon.Lib.Bytes
import Aes67Daemon.Session.Wire

/-!
# SAP datagrams

`SAP::send` lays a datagram out in a buffer, and `SAP::receive` takes one apart in a
buffer of its own.  Neither buffer is cleared: behind the datagram stands whatever
the stack held, often the datagram before.

## Main definitions

* `Sap.announcement`, `Sap.deletion`, `Sap.receive` — the two ends.
* `Sap.ReceivedExactly` — only what is in the datagram counts.
* `Sap.Completable` — what is left over may complete the header of the datagram.
* `Sap.receivedExactly_iff`, `Sap.receive_transmit` — what is received.
* `Sap.hear` — what a browser on another host makes of the datagrams.
* `SessionManager.announced_over_wire` — it has the enabled sources.
-/
namespace Aes67Daemon

open Text

namespace Sap

/-- `sap_header_len`. -/
def headerLen : ℕ := 24

/-- `max_length`. -/
def maxLength : ℕ := 4096

/-- `uint8_t buffer[max_length]`, with whatever it holds. -/
structure Buffer where
  bytes : List UInt8
  size : bytes.length = maxLength

/-- What `async_receive_from` puts into the buffer. -/
structure Datagram where
  bytes : List UInt8
  fits : bytes.length ≤ maxLength

/-- The output parameters of `SAP::receive`. -/
structure Packet where
  isAnnounce : Bool := false
  msgIdHash : UInt16 := 0
  addr : UInt32 := 0
  sdp : List UInt8 := []
  deriving DecidableEq

/-- The range constructor of a string throws when the end of the range precedes its start. -/
inductive LengthError
  | lengthError
  deriving DecidableEq

/-- The payload type, without the NUL that ends it. -/
def mimeWord : List UInt8 := "application/sdp".toList.map fun c => UInt8.ofNat c.toNat

/-- The payload type, with its NUL. -/
def mimeType : List UInt8 := mimeWord ++ [0]

/-- `std::tolower` in the C locale. -/
def tolower (b : UInt8) : UInt8 := if 0x41 ≤ b ∧ b ≤ 0x5a then b + 0x20 else b

/-- The loop over the bytes that are put in lower case, up to the first NUL; `n` are left
of the datagram. -/
def lowered : ℕ → List UInt8 → List UInt8
  | 0, bs => bs
  | _, [] => []
  | n + 1, b :: bs => if b = 0 then b :: bs else tolower b :: lowered n bs

/-! ## The two ends -/

/-- `SAP::send`: the datagram that goes on the wire, or `none` when the answer is false.
`sendTo` tells whether the socket takes it. -/
def send (o : ByteOrder) (buffer : Buffer) (sendTo : List UInt8 → Bool) (isAnnounce : Bool)
    (msgIdHash : UInt16) (addr : UInt32) (sdp : List UInt8) : Option (List UInt8) :=
  if maxLength - headerLen < sdp.length then none
  else
    let buffer := overwrite buffer.bytes 0 [if isAnnounce then 0x20 else 0x24]
    let buffer := overwrite buffer 1 [0]
    let buffer := overwrite buffer 2 (o.store 2 msgIdHash.toNat)
    let buffer := overwrite buffer 4 (o.store 4 addr.toNat)
    let buffer := overwrite buffer 8 mimeType
    let buffer := overwrite buffer headerLen sdp
    let datagram := buffer.take (headerLen + sdp.length)
    if sendTo datagram then some datagram else none

/-- `SAP::announcement`. -/
def announcement (o : ByteOrder) (buffer : Buffer) (sendTo : List UInt8 → Bool)
    (msgIdHash : UInt16) (addr : UInt32) (sdp : List UInt8) : Option (List UInt8) :=
  send o buffer sendTo true msgIdHash (o.htonl addr) sdp

/-- `SAP::deletion`. -/
def deletion (o : ByteOrder) (buffer : Buffer) (sendTo : List UInt8 → Bool)
    (msgIdHash : UInt16) (addr : UInt32) (sdp : List UInt8) : Option (List UInt8) :=
  send o buffer sendTo false msgIdHash (o.htonl addr) sdp

/-- The first byte of the messages that are accepted: an announcement or a deletion, from an
IPv4 address, neither compressed nor encrypted. -/
def messageKind (b : UInt8) : Bool := b = 0x20 || b = 0x24

/-- The parameters that are set from the header, whether the message is accepted or not. -/
def header (o : ByteOrder) (buffer : List UInt8) (out : Packet) : Packet :=
  { out with
    isAnnounce := buffer.headD 0 = 0x20
    msgIdHash := UInt16.ofNat (o.load ((buffer.drop 2).take 2))
    addr := UInt32.ofNat (o.load ((buffer.drop 4).take 4)) }

/-- `SAP::receive`; `none` when nothing comes in time. -/
def receive (o : ByteOrder) (old : Buffer) (received : Option Datagram) (out : Packet) :
    Except LengthError (Bool × Packet) :=
  match received with
  | none => .ok (false, out)
  | some d =>
    let buffer := overwrite old.bytes 0 d.bytes
    let length := d.bytes.length
    if 4 < length ∧ messageKind (buffer.headD 0) then
      let out := header o buffer out
      let buffer := buffer.take 8 ++ lowered (length - 8) (buffer.drop 8)
      if (buffer.drop 8).take 16 = mimeType then
        if headerLen ≤ length then
          .ok (true, { out with sdp := (buffer.drop headerLen).take (length - headerLen) })
        else .error .lengthError
      else .ok (false, out)
    else .ok (false, out)

/-! ## Lower case -/

theorem tolower_eq_zero_iff {b : UInt8} : tolower b = 0 ↔ b = 0 := by
  unfold tolower
  split
  · rename_i h
    obtain ⟨hlow, hhigh⟩ := h
    rw [UInt8.le_iff_toNat_le] at hlow hhigh
    rw [← UInt8.toNat_inj, ← UInt8.toNat_inj, UInt8.toNat_add]
    simp at hlow hhigh ⊢
    omega
  · exact Iff.rfl

@[simp] theorem length_lowered (n : ℕ) (bs : List UInt8) : (lowered n bs).length = bs.length := by
  induction n generalizing bs with
  | zero => rfl
  | succ n ih =>
      cases bs with
      | nil => rfl
      | cons b bs =>
          rw [lowered]
          split
          · rfl
          · simp [ih]

/-- The loop does not go beyond the datagram. -/
theorem lowered_append (bs rest : List UInt8) :
    lowered bs.length (bs ++ rest) = lowered bs.length bs ++ rest := by
  induction bs with
  | nil => rfl
  | cons b bs ih =>
      rw [List.length_cons, List.cons_append, lowered, lowered]
      split
      · rfl
      · rw [ih, List.cons_append]

/-- A word up to its NUL is found as it is in lower case, and what follows it is left alone. -/
theorem isPrefix_lowered_iff {word bs : List UInt8} (hword : 0 ∉ word) :
    word ++ [0] <+: lowered bs.length bs ↔ word ++ [0] <+: bs.map tolower := by
  induction word generalizing bs with
  | nil =>
      cases bs with
      | nil => simp [lowered]
      | cons b bs =>
          rw [List.nil_append, List.length_cons, lowered, List.map_cons, List.cons_prefix_cons]
          by_cases hb : b = 0
          · simp [hb, tolower_eq_zero_iff.mpr]
          · rw [if_neg hb, List.cons_prefix_cons]
            simp
  | cons w word ih =>
      obtain ⟨hw, hword⟩ := List.ne_and_not_mem_of_not_mem_cons hword
      cases bs with
      | nil => simp [lowered]
      | cons b bs =>
          rw [List.cons_append, List.length_cons, lowered, List.map_cons, List.cons_prefix_cons]
          by_cases hb : b = 0
          · have hzero := tolower_eq_zero_iff.mpr hb
            rw [if_pos hb, List.cons_prefix_cons, hzero, hb]
            simp [hw.symm]
          · rw [if_neg hb, List.cons_prefix_cons, ih hword]

theorem drop_lowered {word bs : List UInt8} (hword : 0 ∉ word)
    (h : word ++ [0] <+: lowered bs.length bs) :
    (lowered bs.length bs).drop (word.length + 1) = bs.drop (word.length + 1) := by
  induction word generalizing bs with
  | nil =>
      cases bs with
      | nil => rfl
      | cons b bs =>
          rw [List.nil_append, List.length_cons, lowered] at h
          rw [List.length_cons, lowered]
          split
          · rfl
          · rename_i hb
            rw [if_neg hb, List.cons_prefix_cons] at h
            exact absurd (tolower_eq_zero_iff.mp h.1.symm) hb
  | cons w word ih =>
      obtain ⟨hw, hword⟩ := List.ne_and_not_mem_of_not_mem_cons hword
      cases bs with
      | nil => rfl
      | cons b bs =>
          rw [List.cons_append, List.length_cons, lowered] at h
          rw [List.length_cons, List.length_cons, lowered]
          split
          · rfl
          · rename_i hb
            rw [if_neg hb, List.cons_prefix_cons] at h
            exact ih hword h.2

/-- The start of a word, in lower case. -/
theorem lowered_isPrefix_iff {word bs : List UInt8} (hword : 0 ∉ word)
    (hlength : bs.length ≤ word.length) :
    lowered bs.length bs <+: word ++ [0] ↔ bs.map tolower <+: word ++ [0] := by
  induction word generalizing bs with
  | nil =>
      rw [List.length_nil, Nat.le_zero, List.length_eq_zero_iff] at hlength
      rw [hlength]
      exact Iff.rfl
  | cons w word ih =>
      obtain ⟨hw, hword⟩ := List.ne_and_not_mem_of_not_mem_cons hword
      cases bs with
      | nil => exact Iff.rfl
      | cons b bs =>
          rw [List.cons_append, List.length_cons, lowered, List.map_cons, List.cons_prefix_cons]
          by_cases hb : b = 0
          · have hzero := tolower_eq_zero_iff.mpr hb
            rw [if_pos hb, List.cons_prefix_cons, hzero, hb]
            simp [hw]
          · rw [if_neg hb, List.cons_prefix_cons, ih hword (by simpa using hlength)]

/-! ## What is received -/

theorem zero_not_mem_mimeWord : 0 ∉ mimeWord := by decide

theorem length_mimeType : mimeType.length = 16 := by decide

/-- Only the datagram has a header of its own. -/
theorem header_append (o : ByteOrder) {bytes : List UInt8} (h : 8 ≤ bytes.length)
    (rest : List UInt8) (out : Packet) : header o (bytes ++ rest) out = header o bytes out := by
  have hslice : ∀ i n, i + n ≤ 8 → ((bytes ++ rest).drop i).take n = (bytes.drop i).take n := by
    intro i n hin
    rw [List.drop_append_of_le_length (by omega), List.take_append_of_le_length (by simp; omega)]
  have hhead : (bytes ++ rest).headD 0 = bytes.headD 0 := by
    cases bytes with
    | nil => simp at h
    | cons b bytes => rfl
  rw [header, header, hslice 2 2 (by omega), hslice 4 4 (by omega), hhead]

/-- The payload type is looked for in the datagram if it is long enough. -/
theorem mimeType_append_iff {bs rest : List UInt8} (h : 16 ≤ bs.length) :
    mimeType <+: lowered bs.length bs ++ rest ↔ mimeType <+: bs.map tolower := by
  have hle : mimeType.length ≤ (lowered bs.length bs).length := by
    rw [length_mimeType, length_lowered]
    exact h
  rw [mimeType, ← isPrefix_lowered_iff zero_not_mem_mimeWord, ← mimeType]
  exact ⟨fun hp => List.prefix_of_prefix_length_le hp (List.prefix_append _ _) hle,
    fun hp => hp.trans (List.prefix_append _ _)⟩

/-- What follows the payload type is taken as it is. -/
theorem payload_eq {bytes rest : List UInt8} (h : headerLen ≤ bytes.length)
    (hmime : mimeType <+: (bytes.drop 8).map tolower) :
    ((lowered (bytes.drop 8).length (bytes.drop 8) ++ rest).drop 16).take (bytes.length - headerLen) =
      bytes.drop headerLen := by
  rw [headerLen] at h ⊢
  rw [mimeType, ← isPrefix_lowered_iff zero_not_mem_mimeWord] at hmime
  have hdrop : (lowered (bytes.drop 8).length (bytes.drop 8)).drop 16 = bytes.drop 24 := by
    have hdrop := drop_lowered zero_not_mem_mimeWord hmime
    rwa [show mimeWord.length + 1 = 16 by decide, List.drop_drop] at hdrop
  have hlength : 16 ≤ (lowered (bytes.drop 8).length (bytes.drop 8)).length := by
    simp
    omega
  rw [List.drop_append_of_le_length hlength, hdrop, List.take_append_of_le_length (by simp)]
  exact List.take_of_length_le (by simp)

/-- **What `SAP::receive` does**, with the datagram and what is left over told apart. -/
theorem receive_some (o : ByteOrder) (old : Buffer) (d : Datagram) (out : Packet) :
    receive o old (some d) out =
      if 4 < d.bytes.length ∧ messageKind (d.bytes.headD 0) then
        if mimeType <+: lowered (d.bytes.drop 8).length (d.bytes.drop 8) ++
            (old.bytes.drop d.bytes.length).drop (8 - d.bytes.length) then
          if headerLen ≤ d.bytes.length then
            .ok (true, { header o d.bytes out with sdp := d.bytes.drop headerLen })
          else .error .lengthError
        else .ok (false, header o (d.bytes ++ old.bytes.drop d.bytes.length) out)
      else .ok (false, out) := by
  have hfits := d.fits
  have hsize := old.size
  have hover : overwrite old.bytes 0 d.bytes = d.bytes ++ old.bytes.drop d.bytes.length := by
    simp [overwrite]
  have hhead : 4 < d.bytes.length →
      (d.bytes ++ old.bytes.drop d.bytes.length).headD 0 = d.bytes.headD 0 := by
    intro h
    cases hd : d.bytes with
    | nil => simp [hd] at h
    | cons b bytes => rfl
  have hkind_iff : (4 < d.bytes.length ∧
      messageKind ((d.bytes ++ old.bytes.drop d.bytes.length).headD 0) = true) ↔
        4 < d.bytes.length ∧ messageKind (d.bytes.headD 0) = true :=
    and_congr_right fun h => by rw [hhead h]
  have htake : ((d.bytes ++ old.bytes.drop d.bytes.length).take 8).length = 8 := by
    rw [maxLength] at hfits hsize
    simp only [List.length_take, List.length_append, List.length_drop]
    omega
  have hdrop : (d.bytes ++ old.bytes.drop d.bytes.length).drop 8 = d.bytes.drop 8 ++
      (old.bytes.drop d.bytes.length).drop (8 - d.bytes.length) := List.drop_append
  have hcount : d.bytes.length - 8 = (d.bytes.drop 8).length := by simp
  simp only [receive, hover, hkind_iff]
  refine if_congr Iff.rfl ?_ rfl
  rw [hdrop, hcount, lowered_append, List.drop_left' htake]
  generalize hrest : (old.bytes.drop d.bytes.length).drop (8 - d.bytes.length) = rest
  have hmime_iff : List.take 16 (lowered (d.bytes.drop 8).length (d.bytes.drop 8) ++ rest) = mimeType ↔
      mimeType <+: lowered (d.bytes.drop 8).length (d.bytes.drop 8) ++ rest := by
    rw [List.prefix_iff_eq_take, length_mimeType, eq_comm]
  by_cases hmime : mimeType <+: lowered (d.bytes.drop 8).length (d.bytes.drop 8) ++ rest
  · rw [if_pos (hmime_iff.mpr hmime), if_pos hmime]
    by_cases hlength : headerLen ≤ d.bytes.length
    · have hlong : 16 ≤ (d.bytes.drop 8).length := by
        rw [headerLen] at hlength
        simp
        omega
      have hheader := header_append o (le_trans (by decide) hlength)
        (old.bytes.drop d.bytes.length) out
      have hbehind : ∀ bs : List UInt8, ((d.bytes ++ old.bytes.drop d.bytes.length).take 8 ++ bs).drop
          headerLen = bs.drop 16 := fun bs => by
        rw [List.drop_append, List.drop_eq_nil_of_le (by rw [htake, headerLen]; omega), htake]
        rfl
      rw [if_pos hlength, if_pos hlength, hheader, hbehind,
        payload_eq hlength ((mimeType_append_iff hlong).mp hmime)]
    · rw [if_neg hlength, if_neg hlength]
  · rw [if_neg (mt hmime_iff.mp hmime), if_neg hmime]

/-- With a whole header the datagram alone decides. -/
theorem receive_of_whole (o : ByteOrder) (old : Buffer) {d : Datagram} (out : Packet)
    (hlength : headerLen ≤ d.bytes.length) (hkind : messageKind (d.bytes.headD 0) = true) :
    receive o old (some d) out =
      if mimeType <+: (d.bytes.drop 8).map tolower then
        .ok (true, { header o d.bytes out with sdp := d.bytes.drop headerLen })
      else .ok (false, header o d.bytes out) := by
  have hlong : 16 ≤ (d.bytes.drop 8).length := by
    rw [headerLen] at hlength
    simp
    omega
  rw [receive_some, if_pos ⟨lt_of_lt_of_le (by decide) hlength, hkind⟩, if_pos hlength,
    header_append o (le_trans (by decide) hlength)]
  exact if_congr (mimeType_append_iff hlong) rfl rfl

/-- **Only what is in the datagram counts**: a message that is accepted has a whole header of
its own, with the payload type in it, and the description is what follows it; and what was
in the buffer before does not matter. -/
structure ReceivedExactly (o : ByteOrder) (d : Datagram) : Prop where
  accepted : ∀ old out packet, receive o old (some d) out = .ok (true, packet) →
    headerLen ≤ d.bytes.length ∧ messageKind (d.bytes.headD 0) = true ∧
      mimeType <+: (d.bytes.drop 8).map tolower ∧ packet.sdp = d.bytes.drop headerLen
  alone : ∀ old old' out, receive o old (some d) out = receive o old' (some d) out

/-- The header breaks off, and what there is of it is as it should be. -/
def Completable (d : Datagram) : Prop :=
  4 < d.bytes.length ∧ d.bytes.length < headerLen ∧ messageKind (d.bytes.headD 0) = true ∧
    (d.bytes.drop 8).map tolower <+: mimeType

/-- A buffer that holds some bytes at an offset, between bytes of one value. -/
def filled (b : UInt8) (offset : ℕ) (bytes : List UInt8) (h : offset + bytes.length ≤ maxLength) :
    Buffer where
  bytes := overwrite (List.replicate maxLength b) offset bytes
  size := by rw [length_overwrite (by simpa using h), List.length_replicate]

theorem drop_filled (b : UInt8) {offset : ℕ} {bytes : List UInt8}
    (h : offset + bytes.length ≤ maxLength) :
    (filled b offset bytes h).bytes.drop offset =
      bytes ++ List.replicate (maxLength - (offset + bytes.length)) b := by
  have htake : (List.take offset (List.replicate maxLength b)).length = offset := by
    simp only [List.length_take, List.length_replicate]
    omega
  simp only [filled, overwrite]
  rw [List.append_assoc, List.drop_left' htake, List.drop_replicate]

/-- A header that breaks off has no more than the word of the payload type. -/
theorem length_drop_le {d : Datagram} (h : d.bytes.length < headerLen) :
    (d.bytes.drop 8).length ≤ mimeWord.length := by
  rw [headerLen] at h
  simp only [List.length_drop, show mimeWord.length = 15 by decide]
  omega

/-- What is left over completes only the start of the payload type. -/
theorem isPrefix_mimeWord {bs rest : List UInt8} (h : bs.length ≤ mimeWord.length)
    (hmime : mimeType <+: lowered bs.length bs ++ rest) : lowered bs.length bs <+: mimeWord := by
  have hlength : (lowered bs.length bs).length ≤ mimeWord.length := by simpa using h
  have hstart : lowered bs.length bs <+: mimeType :=
    List.prefix_of_prefix_length_le (List.prefix_append _ _) hmime
      (hlength.trans (by decide))
  exact List.prefix_of_prefix_length_le hstart (List.prefix_append _ _) hlength

/-- What breaks off is completed by what was in some buffer before. -/
theorem exists_completed (o : ByteOrder) {d : Datagram} (h : Completable d) (out : Packet) :
    ∃ old, receive o old (some d) out = .error .lengthError := by
  obtain ⟨hmore, hless, hkind, hprefix⟩ := h
  rw [mimeType, ← lowered_isPrefix_iff zero_not_mem_mimeWord (length_drop_le hless), ← mimeType]
    at hprefix
  obtain ⟨behind, hbehind⟩ := hprefix
  have hlength : d.bytes.length + (8 - d.bytes.length) + behind.length ≤ maxLength := by
    have hsum := congrArg List.length hbehind
    rw [List.length_append, length_lowered, List.length_drop, length_mimeType] at hsum
    rw [maxLength]
    omega
  refine ⟨filled 0 _ behind hlength, ?_⟩
  rw [receive_some, if_pos ⟨hmore, hkind⟩, List.drop_drop, drop_filled, ← List.append_assoc, hbehind,
    if_pos (List.prefix_append _ _), if_neg (by omega)]

/-- In other buffers it is not completed. -/
theorem exists_refused (o : ByteOrder) {d : Datagram} (h : d.bytes.length < headerLen) (out : Packet) :
    ∃ old packet, receive o old (some d) out = .ok (false, packet) := by
  obtain ⟨old, hold⟩ : ∃ old : Buffer, old.bytes = List.replicate maxLength 0xff :=
    ⟨⟨List.replicate maxLength 0xff, List.length_replicate⟩, rfl⟩
  have hnone : ¬ mimeType <+: lowered (d.bytes.drop 8).length (d.bytes.drop 8) ++
      (old.bytes.drop d.bytes.length).drop (8 - d.bytes.length) := by
    intro hmime
    have hstart := isPrefix_mimeWord (length_drop_le h) hmime
    have hzero : (0 : UInt8) ∈ mimeType := by decide
    rcases List.mem_append.mp (hmime.subset hzero) with hmem | hmem
    · exact zero_not_mem_mimeWord (hstart.subset hmem)
    · have hmem' := List.mem_of_mem_drop (List.mem_of_mem_drop hmem)
      rw [hold] at hmem'
      exact absurd (List.eq_of_mem_replicate hmem') (by decide)
  refine ⟨old, ?_⟩
  rw [receive_some]
  by_cases hkind : 4 < d.bytes.length ∧ messageKind (d.bytes.headD 0) = true
  · rw [if_pos hkind, if_neg hnone]
    exact ⟨_, rfl⟩
  · rw [if_neg hkind]
    exact ⟨_, rfl⟩

/-- A header that breaks off is refused unless it can be completed. -/
theorem receive_of_broken (o : ByteOrder) (old : Buffer) {d : Datagram} (out : Packet)
    (hmore : 4 < d.bytes.length) (hless : d.bytes.length < headerLen)
    (hkind : messageKind (d.bytes.headD 0) = true) (hc : ¬ Completable d) :
    receive o old (some d) out = .ok (false, header o d.bytes out) := by
  have hstart : ¬ (d.bytes.drop 8).map tolower <+: mimeType := fun hp => hc ⟨hmore, hless, hkind, hp⟩
  have hlong : 8 ≤ d.bytes.length := by
    by_contra hshort
    rw [List.drop_eq_nil_of_le (by omega)] at hstart
    exact hstart (List.nil_prefix)
  rw [receive_some, if_pos ⟨hmore, hkind⟩, header_append o hlong, if_neg]
  intro hmime
  have hword := isPrefix_mimeWord (length_drop_le hless) hmime
  rw [mimeType, ← lowered_isPrefix_iff zero_not_mem_mimeWord (length_drop_le hless)] at hstart
  exact hstart (hword.trans (List.prefix_append _ _))

/-- A datagram that is refused in the same way whatever was in the buffer. -/
theorem ReceivedExactly.of_refused {o : ByteOrder} {d : Datagram} {answer : Packet → Packet}
    (h : ∀ old out, receive o old (some d) out = .ok (false, answer out)) : ReceivedExactly o d where
  accepted := by
    intro old out packet hr
    rw [h] at hr
    cases hr
  alone := by
    intro old old' out
    rw [h, h]

/-- **When reception is exact**: unless the datagram breaks off inside the header, with its
first byte and as much as there is of the payload type as they should be. -/
theorem receivedExactly_iff (o : ByteOrder) (d : Datagram) :
    ReceivedExactly o d ↔ ¬ Completable d := by
  constructor
  · intro h hc
    obtain ⟨old, hold⟩ := exists_completed o hc {}
    obtain ⟨old', packet, hold'⟩ := exists_refused o hc.2.1 {}
    rw [h.alone old old', hold'] at hold
    cases hold
  · intro hc
    by_cases hkind : 4 < d.bytes.length ∧ messageKind (d.bytes.headD 0) = true
    · by_cases hlength : headerLen ≤ d.bytes.length
      · refine ⟨fun old out packet hr => ?_, fun old old' out => ?_⟩
        · rw [receive_of_whole o old out hlength hkind.2] at hr
          split at hr
          · rename_i hmime
            cases hr
            exact ⟨hlength, hkind.2, hmime, rfl⟩
          · cases hr
        · rw [receive_of_whole o old out hlength hkind.2, receive_of_whole o old' out hlength hkind.2]
      · exact .of_refused fun old out =>
          receive_of_broken o old out hkind.1 (not_le.mp hlength) hkind.2 hc
    · have hrefused : ∀ old out, receive o old (some d) out = .ok (false, id out) := by
        intro old out
        rw [receive_some, if_neg hkind]
        rfl
      exact .of_refused hrefused

/-- The first bytes of a datagram that breaks off are completed by a datagram before it. -/
theorem brokenOff_not_exact : ¬ ReceivedExactly .little ⟨[0x20, 0, 0, 1, 10, 0, 0, 1], by decide⟩ := by
  intro h
  have hc : Completable ⟨[0x20, 0, 0, 1, 10, 0, 0, 1], by decide⟩ := by
    refine ⟨by decide, by decide, by decide, List.nil_prefix⟩
  obtain ⟨old, hold⟩ := exists_completed .little hc {}
  obtain ⟨old', packet, hold'⟩ := exists_refused .little hc.2.1 {}
  rw [h.alone old old', hold'] at hold
  cases hold

/-! ## The round trip -/

/-- The bytes of a datagram. -/
def layout (o : ByteOrder) (isAnnounce : Bool) (msgIdHash : UInt16) (addr : UInt32)
    (sdp : List UInt8) : List UInt8 :=
  [if isAnnounce then 0x20 else 0x24] ++ [0] ++ o.store 2 msgIdHash.toNat ++
    o.store 4 addr.toNat ++ mimeType ++ sdp

/-- Nothing of the old buffer is sent. -/
theorem send_eq (o : ByteOrder) (buffer : Buffer) (sendTo : List UInt8 → Bool) (isAnnounce : Bool)
    (msgIdHash : UInt16) (addr : UInt32) (sdp : List UInt8) :
    send o buffer sendTo isAnnounce msgIdHash addr sdp =
      if maxLength - headerLen < sdp.length then none
      else if sendTo (layout o isAnnounce msgIdHash addr sdp) then
        some (layout o isAnnounce msgIdHash addr sdp)
      else none := by
  have hmime := length_mimeType
  rw [send]
  refine if_congr Iff.rfl rfl ?_
  have hlayout : (overwrite (overwrite (overwrite (overwrite (overwrite (overwrite buffer.bytes 0
      [if isAnnounce then 0x20 else 0x24]) 1 [0]) 2 (o.store 2 msgIdHash.toNat)) 4
      (o.store 4 addr.toNat)) 8 mimeType) headerLen sdp).take (headerLen + sdp.length) =
        layout o isAnnounce msgIdHash addr sdp := by
    conv_lhs => rw [← List.nil_append buffer.bytes]
    rw [overwrite_append (by simp), overwrite_append (by simp), overwrite_append (by simp),
      overwrite_append (by simp), overwrite_append (by simp), overwrite_append (by simp [hmime, headerLen])]
    refine List.take_left' ?_
    simp [hmime, headerLen]
    omega
  simp only [hlayout]

/-- The header of a datagram that was laid out. -/
theorem header_layout (o : ByteOrder) (isAnnounce : Bool) (msgIdHash : UInt16) (addr : UInt32)
    (sdp : List UInt8) (out : Packet) : header o (layout o isAnnounce msgIdHash addr sdp) out =
      { out with isAnnounce := isAnnounce, msgIdHash := msgIdHash, addr := addr } := by
  have hhash : ((layout o isAnnounce msgIdHash addr sdp).drop 2).take 2 = o.store 2 msgIdHash.toNat := by
    simp only [layout, List.append_assoc, List.cons_append, List.nil_append, List.drop_succ_cons,
      List.drop_zero]
    exact List.take_left' (by simp)
  have haddr : ((layout o isAnnounce msgIdHash addr sdp).drop 4).take 4 = o.store 4 addr.toNat := by
    rw [layout, List.append_assoc, List.append_assoc, List.drop_left' (by simp)]
    exact List.take_left' (by simp)
  have hkind : decide ((layout o isAnnounce msgIdHash addr sdp).headD 0 = 0x20) = isAnnounce := by
    cases isAnnounce <;> rfl
  rw [header, hhash, haddr, hkind, o.load_store msgIdHash.toNat_lt, o.load_store addr.toNat_lt,
    UInt16.ofNat_toNat, UInt32.ofNat_toNat]

/-- The sessions `SAP::announcement` and `SAP::deletion` send. -/
def transmit (o : ByteOrder) (buffer : Buffer) (sendTo : List UInt8 → Bool) (isAnnounce : Bool)
    (msgIdHash : UInt16) (addr : UInt32) (sdp : List UInt8) : Option (List UInt8) :=
  if isAnnounce then announcement o buffer sendTo msgIdHash addr sdp
  else deletion o buffer sendTo msgIdHash addr sdp

theorem transmit_eq (o : ByteOrder) (buffer : Buffer) (sendTo : List UInt8 → Bool) (isAnnounce : Bool)
    (msgIdHash : UInt16) (addr : UInt32) (sdp : List UInt8) :
    transmit o buffer sendTo isAnnounce msgIdHash addr sdp =
      send o buffer sendTo isAnnounce msgIdHash (o.htonl addr) sdp := by
  cases isAnnounce <;> rfl

/-- The address the browser shows for the one in a message. -/
def shownAddress (o : ByteOrder) (addr : UInt32) : Text := Address.toText (o.ntohl addr)

/-- **A datagram that was laid out is received as it was meant**, whatever the buffer held. -/
theorem receive_layout (o : ByteOrder) (old : Buffer) (isAnnounce : Bool) (msgIdHash : UInt16)
    (addr : UInt32) (sdp : List UInt8) (d : Datagram)
    (hd : d.bytes = layout o isAnnounce msgIdHash addr sdp) (out : Packet) :
    receive o old (some d) out = .ok (true, ⟨isAnnounce, msgIdHash, addr, sdp⟩) := by
  have hmime := length_mimeType
  have hlength : d.bytes.length = headerLen + sdp.length := by
    rw [hd]
    simp [layout, hmime, headerLen]
    omega
  have hkind : messageKind (d.bytes.headD 0) = true := by
    rw [hd]
    cases isAnnounce <;> rfl
  have hbehind : d.bytes.drop 8 = mimeType ++ sdp := by
    rw [hd, layout, List.append_assoc, List.drop_left' (by simp)]
  have hsdp : d.bytes.drop headerLen = sdp := by
    rw [hd, layout, List.drop_left' (by simp [hmime, headerLen])]
  have hlower : mimeType.map tolower = mimeType := by decide
  have hfound : mimeType <+: (d.bytes.drop 8).map tolower := by
    rw [hbehind, List.map_append, hlower]
    exact List.prefix_append _ _
  rw [receive_of_whole o old out (by omega) hkind, if_pos hfound, hsdp, hd, header_layout]

/-- **What one host sends another receives**: the description is refused when it is too long,
and else the message arrives with its kind, hash and description, and with an address that
is shown as the one of the sender. -/
theorem receive_transmit (o : ByteOrder) (buffer old : Buffer) (isAnnounce : Bool) (msgIdHash : UInt16)
    (addr : UInt32) (sdp : List UInt8) (out : Packet) :
    (maxLength - headerLen < sdp.length ∧
      transmit o buffer (fun _ => true) isAnnounce msgIdHash addr sdp = none) ∨
    (sdp.length ≤ maxLength - headerLen ∧ ∃ (d : Datagram) (a : UInt32),
      transmit o buffer (fun _ => true) isAnnounce msgIdHash addr sdp = some d.bytes ∧
        receive o old (some d) out = .ok (true, ⟨isAnnounce, msgIdHash, a, sdp⟩) ∧
        shownAddress o a = Address.toText addr) := by
  rw [transmit_eq, send_eq]
  by_cases hlong : maxLength - headerLen < sdp.length
  · exact .inl ⟨hlong, if_pos hlong⟩
  · have hfits : (layout o isAnnounce msgIdHash (o.htonl addr) sdp).length ≤ maxLength := by
      rw [maxLength, headerLen] at hlong
      simp [layout, length_mimeType, maxLength]
      omega
    refine .inr ⟨not_lt.mp hlong, ⟨_, hfits⟩, o.htonl addr, ?_, receive_layout o old _ _ _ _ _ rfl out, ?_⟩
    · rw [if_neg hlong]
      rfl
    · rw [shownAddress, ByteOrder.ntohl_htonl]

/-! ## The browser -/

/-- The text that a string of bytes is. -/
def textOf (bytes : List UInt8) : Text := bytes.map fun b => Char.ofNat b.toNat

/-- What the browser is told. -/
def Packet.message (p : Packet) : SapMessage :=
  { isAnnounce := p.isAnnounce
    msgIdHash := p.msgIdHash
    addr := p.addr
    sdp := textOf p.sdp }

/-- A datagram as it is received: what the buffer has no room for is cut off. -/
def Datagram.received (bytes : List UInt8) : Datagram := ⟨bytes.take maxLength, List.length_take_le ..⟩

/-- A call on its way to a browser. -/
structure Flight where
  call : SapCall
  /-- The bytes of the description. -/
  sdp : List UInt8
  spells : call.sdp = textOf sdp
  /-- What the buffers of the two hosts hold before, and the variables of the browser. -/
  buffer : Buffer
  old : Buffer
  out : Packet
  now : ℕ

/-- The datagram that is sent, if there is one. -/
def Flight.sent (f : Flight) : Option (List UInt8) :=
  transmit .little f.buffer (fun _ => true) f.call.isAnnounce f.call.msgIdHash f.call.srcAddr f.sdp

/-- What happens to a browser: a call that was sent to it, or something else. -/
inductive WireEvent
  | flight (f : Flight)
  | other (e : BrowserEvent)

/-- `Browser::worker`, with what `SAP::receive` makes of the datagrams. -/
def hear (sapInterval : UInt16) (b : Browser) : WireEvent → Except LengthError Browser
  | .flight f =>
    match f.sent with
    | none => .ok b
    | some bytes => do
      let (received, packet) ← receive .little f.old (some (.received bytes)) f.out
      pure (if received then b.onSapMessage sapInterval f.now packet.message else b)
  | .other e => .ok (b.occur sapInterval e)

/-- The same with messages in place of datagrams; a description that is too long is not sent. -/
def WireEvent.told : WireEvent → Option BrowserEvent
  | flight f => if f.sdp.length ≤ maxLength - headerLen then some (.sap f.now f.call.message) else none
  | other e => some e

/-- The second byte of a word, where it stands. -/
theorem and_ff00 (n : ℕ) : n &&& 0xff00 = n / 256 % 256 * 256 := by
  have hmask : (0xff00 : ℕ) = (2 ^ 8 - 1) <<< 8 := by decide
  have hvalue : n / 256 % 256 * 256 = ((n >>> 8) &&& (2 ^ 8 - 1)) <<< 8 := by
    rw [Nat.and_two_pow_sub_one_eq_mod, Nat.shiftLeft_eq, Nat.shiftRight_eq_div_pow]
  rw [hvalue, hmask]
  apply Nat.eq_of_testBit_eq
  intro i
  simp only [Nat.testBit_and, Nat.testBit_shiftLeft, Nat.testBit_shiftRight]
  by_cases hi : 8 ≤ i
  · rw [Nat.add_sub_cancel' hi]
    simp [hi]
  · simp [hi]

/-- On a little-endian host the bytes are swapped. -/
theorem htonl_little (a : UInt32) : ByteOrder.little.htonl a = Address.htonl a := by
  apply UInt32.toNat_inj.mp
  have ha := a.toNat_lt
  rw [ByteOrder.toNat_htonl]
  have hl : ByteOrder.little.load (ByteOrder.big.store 4 a.toNat) =
      2 ^ 24 * (a.toNat % 256) + (2 ^ 16 * (a.toNat / 256 % 256) +
        (2 ^ 8 * (a.toNat / 65536 % 256) + a.toNat / 16777216)) := by
    simp [ByteOrder.load, ByteOrder.store, ByteOrder.arrange, Bytes.ofNat, Bytes.value,
      Nat.div_div_eq_div_mul]
    omega
  rw [hl, Nat.two_pow_add_eq_or_of_lt (by omega), Nat.two_pow_add_eq_or_of_lt (by omega),
    Nat.two_pow_add_eq_or_of_lt (by omega), Address.htonl]
  simp only [UInt32.toNat_or, UInt32.toNat_shiftLeft, UInt32.toNat_shiftRight, UInt32.toNat_and]
  have hmask : (0xff00 : UInt32).toNat = 0xff00 := rfl
  have h24 : (24 : UInt32).toNat % 32 = 24 := rfl
  have h8 : (8 : UInt32).toNat % 32 = 8 := rfl
  rw [hmask, h24, h8, and_ff00, and_ff00]
  simp only [Nat.shiftLeft_eq, Nat.shiftRight_eq_div_pow]
  have hfirst : 2 ^ 24 * (a.toNat % 256) = a.toNat * 2 ^ 24 % 2 ^ 32 := by omega
  have hsecond : 2 ^ 16 * (a.toNat / 256 % 256) = a.toNat / 256 % 256 * 256 * 2 ^ 8 % 2 ^ 32 := by omega
  have hthird : 2 ^ 8 * (a.toNat / 65536 % 256) = a.toNat / 2 ^ 8 / 256 % 256 * 256 := by
    rw [Nat.div_div_eq_div_mul]
    omega
  have hfourth : a.toNat / 16777216 = a.toNat / 2 ^ 24 := by norm_num
  rw [hfirst, hsecond, hthird, hfourth, Nat.or_assoc, Nat.or_assoc]

/-- **A call is heard as its message**, if its description has room. -/
theorem hear_event (sapInterval : UInt16) (b : Browser) (e : WireEvent) :
    hear sapInterval b e = .ok (e.told.toList.foldl (Browser.occur sapInterval) b) := by
  cases e with
  | other e => rfl
  | flight f =>
      by_cases hroom : f.sdp.length ≤ maxLength - headerLen
      · have hsent : f.sent =
            some (layout .little f.call.isAnnounce f.call.msgIdHash (ByteOrder.little.htonl f.call.srcAddr)
              f.sdp) := by
          rw [Flight.sent, transmit_eq, send_eq, if_neg (not_lt.mpr hroom)]
          rfl
        have hfits : (layout .little f.call.isAnnounce f.call.msgIdHash (ByteOrder.little.htonl f.call.srcAddr)
            f.sdp).length ≤ maxLength := by
          rw [maxLength, headerLen] at hroom
          simp [layout, length_mimeType, maxLength]
          omega
        have hreceive := receive_layout .little f.old f.call.isAnnounce f.call.msgIdHash
          (ByteOrder.little.htonl f.call.srcAddr) f.sdp (.received _) (List.take_of_length_le hfits) f.out
        have hmessage : Packet.message ⟨f.call.isAnnounce, f.call.msgIdHash,
            ByteOrder.little.htonl f.call.srcAddr, f.sdp⟩ = f.call.message := by
          rw [htonl_little, Packet.message, SapCall.message, f.spells]
        simp only [hear, hsent, hreceive, WireEvent.told, if_pos hroom, Option.toList_some,
          List.foldl_cons, List.foldl_nil, ← hmessage]
        rfl
      · have hsent : f.sent = none := by
          rw [Flight.sent, transmit_eq, send_eq, if_pos (not_le.mp hroom)]
        simp [hear, hsent, WireEvent.told, hroom]

/-- Datagrams do to a browser what the messages do. -/
theorem hear_events (sapInterval : UInt16) (b : Browser) (es : List WireEvent) :
    es.foldlM (hear sapInterval) b =
      .ok ((es.filterMap WireEvent.told).foldl (Browser.occur sapInterval) b) := by
  induction es generalizing b with
  | nil => rfl
  | cons e es ih =>
      rw [List.foldlM_cons, hear_event]
      refine (ih _).trans ?_
      cases htold : e.told with
      | none => rw [List.filterMap_cons_none htold]; rfl
      | some e' => rw [List.filterMap_cons_some htold]; rfl

/-- What the messages of a list of calls on their way are. -/
theorem told_flights (fs : List Flight) :
    (fs.map WireEvent.flight).filterMap WireEvent.told =
      ((fs.filter fun f => f.sdp.length ≤ maxLength - headerLen).map Flight.call).zipWith
        (fun c t => BrowserEvent.sap t c.message)
        ((fs.filter fun f => f.sdp.length ≤ maxLength - headerLen).map Flight.now) := by
  induction fs with
  | nil => rfl
  | cons f fs ih =>
      rw [List.map_cons, List.filterMap_cons, WireEvent.told]
      by_cases hroom : f.sdp.length ≤ maxLength - headerLen
      · simp [hroom, ih]
      · simp [hroom, ih]

end Sap

namespace SessionManager

open Sap

variable {s : SessionManager}

/-- **What a browser on another host makes of the announcements**: in every state that events and
calls of `process_sap` lead to, if the checksums of the descriptions are apart, the datagrams of the
next call give it an entry for each enabled source whose description has room in one, whatever it
has heard before and whatever is left over in the buffers; the entry has the description of the
source unless there was one before. -/
theorem announced_over_wire (host : Host) (env₀ : Env) (now : ℕ) {es : List SapEvent}
    (hrun : run (occurSap host) (start host env₀ now) es = some s) (env : Env)
    (hapart : s.CrcApart host env) (sapInterval : UInt16) (before : List WireEvent) {flights : List Flight}
    (hcalls : flights.map Flight.call = (s.processSap host env).1) :
    ∃ old b : Browser, before.foldlM (hear sapInterval) {} = .ok old ∧
      (flights.map WireEvent.flight).foldlM (hear sapInterval) old = .ok b ∧
      ∀ id info, s.sources.find? id = some info → info.enabled = true →
        (s.sapSdp host env info).length ≤ maxLength - headerLen →
        ∃ it, b.sources.find? (sapId (Address.htonl host.config.ipAddr) (crc16 (s.sapSdp host env info))) =
            some it ∧
          (old.sources.find? (sapId (Address.htonl host.config.ipAddr)
            (crc16 (s.sapSdp host env info))) = none → it.sdp = s.sapSdp host env info) := by
  have H : s.HostAddressed host := run_keeps (P := fun _ _ => True)
    (fun _ _ _ hinv _ => hostAddressed_occur hinv) (hostAddressed_start env₀ now)
    (along_of_forall fun _ _ => trivial) hrun
  have hwire : WireApart (s.processSap host env).1 := (wireApart_iff H env).mpr hapart
  have haddr := srcAddr_processSap H env
  obtain ⟨gone, hsplit, -⟩ := processSap_wire H env
  refine ⟨_, _, hear_events sapInterval {} before, hear_events sapInterval _ _, ?_⟩
  intro id info hf hen hroom
  -- the call that announces the source
  obtain ⟨c, hc⟩ : ∃ c, c = SapPass.announcement (s.sapSdp host env) (id, info) := ⟨_, rfl⟩
  have hmem : c ∈ (s.processSap host env).1 := by
    rw [hsplit, hc]
    exact List.mem_append_left _ (List.mem_map_of_mem
      (List.mem_filter.mpr ⟨SortedMap.mem_entries.mpr hf, hen⟩))
  have hann : c.isAnnounce = true := by rw [hc, SapPass.announcement]
  have hsdp : c.sdp = s.sapSdp host env info := by rw [hc, SapPass.announcement]
  have hkey : sapId (Address.htonl host.config.ipAddr) (crc16 (s.sapSdp host env info)) =
      sapId (Address.htonl c.srcAddr) c.msgIdHash := by rw [haddr c hmem, hc, SapPass.announcement]
  -- the calls that are sent
  generalize hsent : flights.filter (fun f => f.sdp.length ≤ maxLength - headerLen) = sent
  have hsub : ∀ d ∈ sent.map Flight.call, d ∈ (s.processSap host env).1 := by
    intro d hd
    obtain ⟨f, hf, rfl⟩ := List.mem_map.mp hd
    rw [← hsent] at hf
    rw [← hcalls]
    exact List.mem_map_of_mem (List.mem_of_mem_filter hf)
  have hmem' : c ∈ sent.map Flight.call := by
    rw [← hcalls] at hmem
    obtain ⟨f, hf, hfc⟩ := List.mem_map.mp hmem
    refine List.mem_map.mpr ⟨f, ?_, hfc⟩
    rw [← hsent, List.mem_filter]
    refine ⟨hf, decide_eq_true ?_⟩
    have hlength : f.call.sdp.length = f.sdp.length := by rw [f.spells, textOf, List.length_map]
    rw [← hlength, hfc, hsdp]
    exact hroom
  have hsame : ∀ d ∈ sent.map Flight.call, d.remoteId = c.remoteId → d = c := fun d hd =>
    eq_of_wireApart haddr hwire (List.mem_filter.mpr ⟨hmem, hann⟩) (hsub d hd)
  rw [hkey, told_flights, hsent,
    Browser.find?_run (Browser.idsByProtocol_run Browser.idsByProtocol_empty _), ← hsdp]
  exact Browser.session_announced (by simp) hmem' hann hsame _

/-- The calls on their way with cleared buffers, each with its description as bytes. -/
def sentOff (now : ℕ) (c : SapCall) : Option Flight :=
  let bytes := c.sdp.map fun ch => UInt8.ofNat ch.toNat
  if h : c.sdp = textOf bytes then
    some ⟨c, bytes, h, ⟨List.replicate maxLength 0, List.length_replicate⟩,
      ⟨List.replicate maxLength 0, List.length_replicate⟩, {}, now⟩
  else none

/-- Two sources are announced to a browser, with a retracted one between them. -/
theorem announced_over_wire_replaced : ∃ s a c b,
    run (occurSap {}) (start {} {} 0) replacedSource = some s ∧
    s.sources.find? 1 = some a ∧ s.sources.find? 3 = some c ∧
    (((s.processSap {} {}).1.filterMap (sentOff 5)).map WireEvent.flight).foldlM (hear 30) {} = .ok b ∧
    (∃ it, b.sources.find? (sapId (Address.htonl ({} : Host).config.ipAddr)
        (crc16 (s.sapSdp {} {} a))) = some it ∧ it.sdp = s.sapSdp {} {} a) ∧
    (∃ it, b.sources.find? (sapId (Address.htonl ({} : Host).config.ipAddr)
        (crc16 (s.sapSdp {} {} c))) = some it ∧ it.sdp = s.sapSdp {} {} c) := by
  have hrun : (run (occurSap {}) (start {} {} 0) replacedSource).map (fun s =>
      (decide (s.CrcApart {} {}),
        decide (((s.processSap {} {}).1.filterMap (sentOff 5)).map Flight.call = (s.processSap {} {}).1),
        (s.sources.find? 1).map (fun i =>
          (i.enabled, decide ((s.sapSdp {} {} i).length ≤ maxLength - headerLen))),
        (s.sources.find? 3).map fun i =>
          (i.enabled, decide ((s.sapSdp {} {} i).length ≤ maxLength - headerLen)))) =
      some (true, true, some (true, true), some (true, true)) := by
    decide +kernel
  obtain ⟨s, hs, hstate⟩ := Option.map_eq_some_iff.mp hrun
  simp only [Prod.mk.injEq, decide_eq_true_eq, Option.map_eq_some_iff] at hstate
  obtain ⟨hapart, hcalls, ⟨a, ha, haen, haroom⟩, c, hc, hcen, hcroom⟩ := hstate
  obtain ⟨old, b, hold, hb, hall⟩ := announced_over_wire {} {} 0 hs {} hapart 30 [] hcalls
  obtain rfl := Except.ok.inj hold
  obtain ⟨ita, hita, hsdpa⟩ := hall 1 a ha haen haroom
  obtain ⟨itc, hitc, hsdpc⟩ := hall 3 c hc hcen hcroom
  have hempty : ∀ key, ({} : Browser).sources.find? key = none := fun key => SortedMap.find?_empty key
  exact ⟨s, a, c, b, hs, ha, hc, hb, ⟨ita, hita, hsdpa (hempty _)⟩, itc, hitc, hsdpc (hempty _)⟩

end SessionManager
end Aes67Daemon
