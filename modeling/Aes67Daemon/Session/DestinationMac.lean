import Aes67Daemon.Session.Prepared

/-!
# Destination MACs

A leg that sends to or listens to a group has the MAC address that belongs to the group.
The second leg of a source is a copy of the first one, MAC address included, and gets its
own destination afterwards; for both legs of a sink the MAC address is made from the
destination of the first one.  So the second leg has the MAC address of its group exactly
when that address happens to belong to the destination of the first leg too.

## Main definitions

* `Request.Hands` — the records a request hands to the driver.
* `TRTPStreamInfo.MacMatches` — a record has the MAC address of its group.
* `Request.MacsAgree` — the two legs have one MAC address where the second one needs it.
* `Request.macs_match_iff` — the records match exactly when the legs agree.
-/
namespace Aes67Daemon

open Text

/-! ## Addresses -/

namespace Address

theorem toNat_mac_high (a : UInt32) : ((a >>> 16) &&& (0x7f : UInt32)).toUInt8.toNat = a.toNat / 65536 % 128 := by
  have hmask : ∀ n : ℕ, n &&& 127 = n % 128 := fun n => Nat.and_two_pow_sub_one_eq_mod n 7
  simp [hmask, Nat.shiftRight_eq_div_pow]

theorem toNat_mac_middle (a : UInt32) : (a >>> 8).toUInt8.toNat = a.toNat / 256 % 256 := by
  simp [Nat.shiftRight_eq_div_pow]

/-- **Two groups share a MAC address exactly when they agree in the low 23 bits.** -/
theorem mcastMacAddr_eq_iff (a b : UInt32) : mcastMacAddr a = mcastMacAddr b ↔ a.toNat % 2 ^ 23 = b.toNat % 2 ^ 23 := by
  simp only [mcastMacAddr, List.cons.injEq, true_and, and_true, ← UInt8.toNat_inj]
  rw [toNat_mac_high, toNat_mac_high, toNat_mac_middle, toNat_mac_middle, UInt32.toNat_toUInt8, UInt32.toNat_toUInt8]
  omega

end Address

/-- A record for a group has the MAC address of the group. -/
def TRTPStreamInfo.MacMatches (stream : TRTPStreamInfo) : Prop :=
  Address.inMulticast stream.ui32DestIP = true → stream.ui8DestMAC = Address.mcastMacAddr stream.ui32DestIP

/-! ## What is handed to the driver -/

namespace Request

open SessionManager

/-- A request hands the primary leg of its record to the driver. -/
structure HandsFirst (host : Host) (s : SessionManager) (r : Request) (info : StreamInfo) : Prop where
  prepared : r.prepared host s = some info
  name : (s.books.table r.kind).find? r.id = none → (s.books.names r.kind).find? r.name = none
  live : r.kind.live info = true

/-- And then a secondary leg. -/
structure HandsSecond (host : Host) (s : SessionManager) (r : Request) (info : StreamInfo) (leg1 : TRTPStreamInfo) : Prop
    extends r.HandsFirst host s info where
  accepted : (s.books.vacate host r.env r.kind r.id).driver.accepts r.env.replies.addFirst
  leg1 : r.secondLeg host info = some leg1

/-- A request hands a record to the driver, which may accept it or not. -/
def Hands (host : Host) (s : SessionManager) (r : Request) (stream : TRTPStreamInfo) : Prop :=
  ∃ info, (r.HandsFirst host s info ∧ stream = info.stream.leg0) ∨ r.HandsSecond host s info stream

/-- The low 23 bits of two addresses agree. -/
def SameLow (a b : UInt32) : Prop := a.toNat % 2 ^ 23 = b.toNat % 2 ^ 23

/-- Where a request hands over a secondary leg for a group, the legs agree: for a sink in
the low bits of their destinations; for a source as well, unless the first destination is a
host, which then has to have the MAC address of the group. -/
def MacsAgree (host : Host) (s : SessionManager) : Request → Prop
  | .addSource env source => ∀ info leg1, HandsSecond host s (.addSource env source) info leg1 →
    Address.inMulticast (sourceDestIPSec host source) = true →
      if Address.inMulticast (sourceDestIP host source) then SameLow (sourceDestIP host source) (sourceDestIPSec host source)
      else retrieveMac env (sourceDestIP host source) = some (Address.mcastMacAddr (sourceDestIPSec host source))
  | .addSink env sink => ∀ info leg1, HandsSecond host s (.addSink env sink) info leg1 →
    Address.inMulticast info.stream.leg1.ui32DestIP = true →
      SameLow info.stream.leg0.ui32DestIP info.stream.leg1.ui32DestIP
  | .removeSource _ _ | .removeSink _ _ => True

end Request

/-! ## The driver has what it was handed -/

section
variable {host : Host} {env : Env} {s s' : SessionManager} {r : Request} {h : Handle} {stream : TRTPStreamInfo}

theorem Driver.registered_of_remove {d : Driver} {reply : Option ErrorCode} {h' : Handle}
    (hreg : (d.removeRtpStream reply h').2.registered.find? h = some stream) : d.registered.find? h = some stream := by
  unfold Driver.removeRtpStream at hreg
  split at hreg
  · cases reply with
    | none =>
        rw [SortedMap.find?_erase] at hreg
        split at hreg
        · cases hreg
        · exact hreg
    | some e => exact hreg
  · exact hreg

theorem Driver.registered_of_hold {d : Driver} {h' : Handle} {leg : TRTPStreamInfo}
    (hreg : (d.hold h' leg).registered.find? h = some stream) : d.registered.find? h = some stream ∨ stream = leg := by
  rw [Driver.hold, SortedMap.find?_insert] at hreg
  split at hreg
  · exact .inr (Option.some.inj hreg).symm
  · exact .inl hreg

namespace SessionManager

theorem registered_of_dropLegs {info : StreamInfo} {d : Driver}
    (hreg : (dropLegs env info d).registered.find? h = some stream) : d.registered.find? h = some stream := by
  unfold dropLegs at hreg
  dsimp only at hreg
  split at hreg
  · exact Driver.registered_of_remove (Driver.registered_of_remove hreg)
  · exact Driver.registered_of_remove hreg

theorem registered_of_removeLegs {info : StreamInfo} {d : Driver}
    (hreg : (removeLegs env info d).2.registered.find? h = some stream) : d.registered.find? h = some stream := by
  unfold removeLegs at hreg
  dsimp only at hreg
  split at hreg
  · exact Driver.registered_of_remove (Driver.registered_of_remove hreg)
  · exact Driver.registered_of_remove hreg

end SessionManager

theorem Books.registered_of_strike {b : Books} {k : Kind} {id : UInt8} {old : StreamInfo}
    (hreg : (b.strike host env k id old).driver.registered.find? h = some stream) :
    b.driver.registered.find? h = some stream := by
  unfold Books.strike at hreg
  dsimp only at hreg
  split at hreg
  · exact SessionManager.registered_of_dropLegs hreg
  · exact hreg

theorem Books.registered_of_vacate {b : Books} {k : Kind} {id : UInt8}
    (hreg : (b.vacate host env k id).driver.registered.find? h = some stream) : b.driver.registered.find? h = some stream := by
  unfold Books.vacate at hreg
  split at hreg
  · exact hreg
  · exact Books.registered_of_strike hreg

open SessionManager

/-- **A record that the driver has after a request was there before or was handed over.** -/
theorem Request.hands_of_registered {ret : Ret} (hs : s.serve host r = some (ret, s'))
    (hreg : s'.driver.registered.find? h = some stream) :
    s.driver.registered.find? h = some stream ∨ r.Hands host s stream := by
  have hbooks := serve_books hs
  have hdriver : s'.books.driver.registered.find? h = some stream := hreg
  generalize s'.books = b at hbooks hdriver
  cases hbooks with
  | unchanged hret hpre => exact .inl hdriver
  | removalFailed hr hold hlive hdrop => exact .inl (registered_of_removeLegs hdriver)
  | removed hr hold => exact .inl (Books.registered_of_strike hdriver)
  | admitted hprep hname hbooks =>
      rename_i info
      have hold : ∀ {h0 : Handle}, ((s.books.vacate host r.env r.kind r.id).driver.hold h0 info.stream.leg0).registered.find? h =
          some stream → r.kind.live info = true → s.driver.registered.find? h = some stream ∨ r.Hands host s stream := by
        intro h0 hreg hlive
        rcases Driver.registered_of_hold hreg with hbefore | hfirst
        · exact .inl (Books.registered_of_vacate hbefore)
        · exact .inr ⟨info, .inl ⟨⟨hprep, hname, hlive⟩, hfirst⟩⟩
      cases hbooks with
      | placed hlive => exact .inl (Books.registered_of_vacate hdriver)
      | refused hlive hfirst => exact .inl (Books.registered_of_vacate hdriver)
      | undone hlive hfirst hfresh hleg1 hsecond hundo => exact hold (Driver.registered_of_remove hdriver) hlive
      | single hlive hfirst hfresh hleg1 => exact hold hdriver hlive
      | dual hlive hfirst hfresh hleg1 hsecond hfresh1 =>
          rcases Driver.registered_of_hold hdriver with hbefore | hleg
          · exact hold hbefore hlive
          · refine .inr ⟨info, .inr ⟨⟨hprep, hname, hlive⟩, ?_, hleg ▸ hleg1⟩⟩
            rw [hfirst]
            exact hfresh

/-! ## Legs that match -/

/-- The MAC address of the primary leg of a source. -/
theorem SessionManager.sourceStream_mac {source : StreamSource} {rate : UInt32}
    (hstream : sourceStream host env source rate = some stream) :
    (Address.inMulticast (sourceDestIP host source) = true ∧
      stream.ui8DestMAC = Address.mcastMacAddr (sourceDestIP host source)) ∨
    (Address.inMulticast (sourceDestIP host source) = false ∧
      retrieveMac env (sourceDestIP host source) = some stream.ui8DestMAC) := by
  unfold sourceStream at hstream
  dsimp only at hstream
  split at hstream
  · rename_i hgroup
    obtain rfl := Option.some.inj hstream
    exact .inl ⟨hgroup, rfl⟩
  · rename_i hhost
    obtain ⟨mac, hmac, rfl⟩ := Option.map_eq_some_iff.mp hstream
    exact .inr ⟨Bool.eq_false_iff.mpr hhost, hmac⟩

namespace Request

/-- The primary leg matches. -/
theorem HandsFirst.macMatches {info : StreamInfo} (H : r.HandsFirst host s info) : info.stream.leg0.MacMatches := by
  rcases prepared_cases H.prepared with ⟨env, source, stream, rfl, -, hstream, rfl⟩ | ⟨env, sink, rfl, -, hprep⟩
  · intro hgroup
    have hdest : stream.ui32DestIP = sourceDestIP host source := (sourceStream_fields hstream).2.2.2.2
    have hgroup : Address.inMulticast stream.ui32DestIP = true := hgroup
    rcases sourceStream_mac hstream with ⟨-, hmac⟩ | ⟨hhost, -⟩
    · exact hmac.trans (congrArg Address.mcastMacAddr hdest.symm)
    · rw [hdest, hhost] at hgroup
      cases hgroup
  · obtain ⟨-, sdp, parsed, -, -, rfl⟩ := preparedSink_eq_ok hprep
    intro hgroup
    exact if_pos hgroup

/-- The secondary leg of a source matches when its legs agree. -/
theorem HandsSecond.source_matches_iff {source : StreamSource} {info : StreamInfo} {leg1 : TRTPStreamInfo}
    (H : HandsSecond host s (.addSource env source) info leg1) :
    leg1.MacMatches ↔ (Address.inMulticast (sourceDestIPSec host source) = true →
      if Address.inMulticast (sourceDestIP host source) then SameLow (sourceDestIP host source) (sourceDestIPSec host source)
      else retrieveMac env (sourceDestIP host source) = some (Address.mcastMacAddr (sourceDestIPSec host source))) := by
  obtain ⟨ip, -, rfl⟩ := Option.map_eq_some_iff.mp H.leg1
  rcases prepared_cases H.prepared with ⟨env', source', stream, heq, -, hstream, rfl⟩ | ⟨env', sink, heq, -⟩
  · obtain ⟨rfl, rfl⟩ := Request.addSource.inj heq
    refine imp_congr_right fun _ => ?_
    -- the MAC address is the one of the first leg
    show stream.ui8DestMAC = Address.mcastMacAddr (sourceDestIPSec host source) ↔ _
    rcases sourceStream_mac hstream with ⟨hgroup, hmac⟩ | ⟨hhost, hmac⟩
    · rw [if_pos hgroup, hmac]
      exact Address.mcastMacAddr_eq_iff _ _
    · rw [if_neg (by rw [hhost]; exact Bool.false_ne_true), hmac, Option.some.injEq]
  · cases heq

/-- The secondary leg of a sink matches when its legs agree. -/
theorem HandsSecond.sink_matches_iff {sink : StreamSink} {info : StreamInfo} {leg1 : TRTPStreamInfo}
    (H : HandsSecond host s (.addSink env sink) info leg1) :
    leg1.MacMatches ↔ (Address.inMulticast info.stream.leg1.ui32DestIP = true →
      SameLow info.stream.leg0.ui32DestIP info.stream.leg1.ui32DestIP) := by
  obtain ⟨ip, hip, rfl⟩ := Option.map_eq_some_iff.mp H.leg1
  have hdup : info.st20227Enabled = true := by
    by_contra hsingle
    rw [if_neg hsingle] at hip
    cases hip
  rcases prepared_cases H.prepared with ⟨env', source, stream, heq, -⟩ | ⟨env', sink', heq, -, hprep⟩
  · cases heq
  · obtain ⟨rfl, rfl⟩ := Request.addSink.inj heq
    obtain ⟨-, sdp, parsed, -, -, rfl⟩ := preparedSink_eq_ok hprep
    have hdup : parsed.st20227Enabled = true := hdup
    simp only [hdup, if_true]
    refine imp_congr_right fun hgroup => ?_
    have hgroup : Address.inMulticast parsed.stream.leg1.ui32DestIP = true := hgroup
    -- the multicast MAC address is the one of the first leg
    have hmac : (sinkStreamSec host env ip (sinkLeg host parsed.stream.leg0 parsed.stream.leg1)).ui8DestMAC =
        Address.mcastMacAddr parsed.stream.leg0.ui32DestIP := by
      simp [sinkStreamSec, sinkLeg, hgroup]
    rw [hmac]
    exact Address.mcastMacAddr_eq_iff _ _

/-- **Every record that is handed to the driver has the MAC address of its group exactly when
the legs agree.** -/
theorem macs_match_iff (host : Host) (s : SessionManager) (r : Request) :
    (∀ stream, r.Hands host s stream → stream.MacMatches) ↔ r.MacsAgree host s := by
  have hsecond : (∀ stream, r.Hands host s stream → stream.MacMatches) ↔
      ∀ info leg1, r.HandsSecond host s info leg1 → leg1.MacMatches := by
    constructor
    · intro hall info leg1 H
      exact hall leg1 ⟨info, .inr H⟩
    · intro hall stream hhands
      obtain ⟨info, ⟨H, rfl⟩ | H⟩ := hhands
      · exact H.macMatches
      · exact hall info stream H
  rw [hsecond]
  cases r with
  | addSource env source =>
      exact forall_congr' fun info => forall_congr' fun leg1 => forall_congr' fun H => H.source_matches_iff
  | addSink env sink =>
      exact forall_congr' fun info => forall_congr' fun leg1 => forall_congr' fun H => H.sink_matches_iff
  | removeSource env id | removeSink env id =>
      refine iff_of_true (fun info leg1 H => ?_) trivial
      cases H.leg1

end Request
end

/-! ### Sample requests -/

/-- A sink that listens to two groups. -/
def twoGroupsSink : Request :=
  .addSink (.answering (some 0x0a000001) (.ok 7) (.ok 8))
    (stereoSink 1 "a".toList (redundantSdp "239.1.0.1".toList "239.2.0.2".toList))

/-- The record for the second group has the MAC address of the first one. -/
theorem wrong_mac : ∃ stream, twoGroupsSink.Hands redundantHost (SessionManager.create redundantHost) stream ∧
    stream.ui32DestIP = 0xef020002 ∧ stream.ui8DestMAC = Address.mcastMacAddr 0xef010001 ∧ ¬ stream.MacMatches := by
  have hserve : ((SessionManager.create redundantHost).serve redundantHost twoGroupsSink).bind (fun p =>
      (p.2.driver.registered.find? 8).map fun stream => (stream.ui32DestIP, stream.ui8DestMAC)) =
      some (0xef020002, Address.mcastMacAddr 0xef010001) := by decide +kernel
  obtain ⟨⟨ret, s⟩, hs, hstream⟩ := Option.bind_eq_some_iff.mp hserve
  obtain ⟨stream, hreg, hfields⟩ := Option.map_eq_some_iff.mp hstream
  obtain ⟨hdest, hmac⟩ := Prod.mk.inj hfields
  have hhands : twoGroupsSink.Hands redundantHost (SessionManager.create redundantHost) stream := by
    rcases Request.hands_of_registered hs hreg with hbefore | hhands
    · cases hbefore
    · exact hhands
  refine ⟨stream, hhands, hdest, hmac, fun hmatches => ?_⟩
  have hright := hmatches (by rw [hdest]; decide)
  rw [hmac, hdest] at hright
  exact absurd hright (by decide)

end Aes67Daemon
