import Aes67Daemon.Session.RoundTrip

/-!
# The settings of a source

`get_source_` puts the settings of a source together from what was registered with the driver: the
name and the codec from buffers of a fixed size, the channel map by a count of 8 bits, and the use
of the secondary leg from whether there is one.

## Main definitions

* `StreamSource.readBack` — the settings that `get_source` returns for a source.
* `getSource_addSource` — it does.
* `settings_kept_iff` — which settings are kept, and when they are kept again.
-/
namespace Aes67Daemon

open Text

variable {host : Host} {env env' : Env} {s : StreamSource}

namespace StreamSource

/-- The settings that are returned for a source. -/
def readBack (host : Host) (env : Env) (s : StreamSource) : StreamSource :=
  { s with
    name := cStr host.nameSize s.name
    codec := cStr host.codecSize s.codec
    address := Address.toText (SessionManager.sourceDestIP host s)
    addressSec := if s.dualLeg host env then Address.toText (SessionManager.sourceDestIPSec host s) else []
    useSecondary := decide (s.dualLeg host env)
    ttl := if Address.inMulticast (SessionManager.sourceDestIP host s) then s.ttl else 64
    map := s.map.take (s.map.length % 256) }

/-- The settings of a source are the ones that are returned. -/
structure SettingsKept (host : Host) (s g : StreamSource) : Prop where
  id : g.id = s.id
  enabled : g.enabled = s.enabled
  name : g.name = s.name
  io : g.io = s.io
  maxSamplesPerPacket : g.maxSamplesPerPacket = s.maxSamplesPerPacket
  codec : g.codec = s.codec
  payloadType : g.payloadType = s.payloadType
  dscp : g.dscp = s.dscp
  refclkPtpTraceable : g.refclkPtpTraceable = s.refclkPtpTraceable
  map : g.map = s.map
  useSecondary : g.useSecondary = s.useSecondary
  address : Address.IsAddress s.address → g.address = s.address
  addressSec : Address.IsAddress s.addressSec → g.addressSec = s.addressSec
  ttl : Address.inMulticast (SessionManager.sourceDestIP host s) = true → g.ttl = s.ttl

/-- The settings fit where they are held, and a secondary leg is there if it is asked for. -/
structure Fits (host : Host) (env : Env) (s : StreamSource) : Prop where
  name : '\x00' ∉ s.name ∧ s.name.length ≤ host.nameSize - 1
  codec : '\x00' ∉ s.codec ∧ s.codec.length ≤ host.codecSize - 1
  map : s.map.length ≤ 255
  secondary : (s.useSecondary = true ∨ Address.IsAddress s.addressSec) → s.dualLeg host env

theorem settingsKept_readBack_iff : s.SettingsKept host (s.readBack host env) ↔ s.Fits host env := by
  constructor
  · intro h
    refine ⟨cStr_eq_self_iff.mp h.name, cStr_eq_self_iff.mp h.codec, ?_, ?_⟩
    · have hmap := (List.take_eq_self_iff _).mp h.map
      omega
    · rintro (huse | ⟨a, ha⟩)
      · exact of_decide_eq_true (h.useSecondary.trans huse)
      · by_contra hdual
        have hsec := (h.addressSec ⟨a, ha⟩).trans ha
        rw [show (s.readBack host env).addressSec = [] from if_neg hdual] at hsec
        exact Address.toText_ne_nil a hsec.symm
  · intro h
    refine ⟨rfl, rfl, cStr_eq_self_iff.mpr h.name, rfl, rfl, cStr_eq_self_iff.mpr h.codec, rfl, rfl, rfl, ?_, ?_, ?_, ?_,
      fun hm => if_pos hm⟩
    · refine (List.take_eq_self_iff _).mpr ?_
      have hmap := h.map
      omega
    · show decide (s.dualLeg host env) = s.useSecondary
      cases huse : s.useSecondary with
      | true => exact decide_eq_true (h.secondary (.inl huse))
      | false => exact decide_eq_false fun hdual => absurd (huse.symm.trans hdual.2.1) Bool.false_ne_true
    · rintro ⟨a, ha⟩
      show Address.toText (SessionManager.sourceDestIP host s) = s.address
      rw [SessionManager.sourceDestIP, ha, Address.ofText_toText, Option.getD_some]
    · rintro ⟨a, ha⟩
      show (if s.dualLeg host env then Address.toText (SessionManager.sourceDestIPSec host s) else []) = s.addressSec
      rw [if_pos (h.secondary (.inr ⟨a, ha⟩)), SessionManager.sourceDestIPSec, ha, Address.ofText_toText, Option.getD_some]

/-- A source that is added again has a secondary leg if it had one and the interface has an address. -/
theorem dualLeg_readBack_iff : (s.readBack host env).dualLeg host env' ↔
    s.dualLeg host env ∧ (env'.secondaryIp host).isSome = true := by
  constructor
  · rintro ⟨-, huse, hip⟩
    exact ⟨of_decide_eq_true huse, hip⟩
  · rintro ⟨hdual, hip⟩
    exact ⟨hdual.1, decide_eq_true hdual, hip⟩

/-- **What was returned is returned again**, unless it has a secondary leg and the interface has lost
its address. -/
theorem readBack_readBack_iff : (s.readBack host env).readBack host env' = s.readBack host env ↔
    (s.dualLeg host env → (env'.secondaryIp host).isSome = true) := by
  constructor
  · intro h hdual
    have huse : decide ((s.readBack host env).dualLeg host env') = decide (s.dualLeg host env) :=
      congrArg useSecondary h
    exact (dualLeg_readBack_iff.mp ((decide_eq_decide.mp huse).mpr hdual)).2
  · intro h
    have hdual : (s.readBack host env).dualLeg host env' ↔ s.dualLeg host env :=
      dualLeg_readBack_iff.trans (and_iff_left_of_imp h)
    have hdest : SessionManager.sourceDestIP host (s.readBack host env) = SessionManager.sourceDestIP host s := by
      rw [SessionManager.sourceDestIP, readBack, Address.ofText_toText, Option.getD_some]
    have hsec : (if (s.readBack host env).dualLeg host env' then
        Address.toText (SessionManager.sourceDestIPSec host (s.readBack host env)) else []) =
        (s.readBack host env).addressSec := by
      by_cases hd : s.dualLeg host env
      · have hback : (s.readBack host env).addressSec = Address.toText (SessionManager.sourceDestIPSec host s) := if_pos hd
        rw [if_pos (hdual.mpr hd), SessionManager.sourceDestIPSec, hback, Address.ofText_toText, Option.getD_some]
      · rw [if_neg (mt hdual.mp hd)]
        exact (if_neg hd).symm
    have hmap : (s.readBack host env).map.take ((s.readBack host env).map.length % 256) = (s.readBack host env).map := by
      have hlength : (s.readBack host env).map.length = min (s.map.length % 256) s.map.length := List.length_take
      refine (List.take_eq_self_iff _).mpr ?_
      omega
    have httl : (if Address.inMulticast (SessionManager.sourceDestIP host s) then (s.readBack host env).ttl else 64) =
        (s.readBack host env).ttl := by
      by_cases hm : Address.inMulticast (SessionManager.sourceDestIP host s) = true
      · rw [if_pos hm]
      · rw [if_neg hm]
        exact (if_neg hm).symm
    show ({ s.readBack host env with
      name := cStr host.nameSize (cStr host.nameSize s.name)
      codec := cStr host.codecSize (cStr host.codecSize s.codec)
      address := Address.toText (SessionManager.sourceDestIP host (s.readBack host env))
      addressSec := if (s.readBack host env).dualLeg host env' then
        Address.toText (SessionManager.sourceDestIPSec host (s.readBack host env)) else []
      useSecondary := decide ((s.readBack host env).dualLeg host env')
      ttl := if Address.inMulticast (SessionManager.sourceDestIP host (s.readBack host env)) then
        (s.readBack host env).ttl else 64
      map := (s.readBack host env).map.take ((s.readBack host env).map.length % 256) } : StreamSource) = s.readBack host env
    rw [cStr_cStr, cStr_cStr, hsec, hmap, hdest, httl, decide_eq_decide.mpr hdual]
    rfl

end StreamSource

namespace SessionManager
variable {m m' : SessionManager}

/-- The settings of a source that is prepared. -/
theorem getSource_sourceInfo {rate v : UInt32} {stream : TRTPStreamInfo}
    (h : sourceStream host env s rate = some stream) :
    getSource_ s.id (sourceInfo host s stream v) =
      { s.readBack host env with addressSec := [], useSecondary := false } := by
  have hmap : ((s.map.map UInt8.toUInt32).take (UInt8.ofNat s.map.length).toNat).map UInt32.toUInt8 =
      s.map.take (s.map.length % 256) := by
    have hback : UInt32.toUInt8 ∘ UInt8.toUInt32 = id := funext UInt8.toUInt8_toUInt32
    rw [← List.map_take, List.map_map, UInt8.toNat_ofNat', hback, List.map_id]
  unfold sourceStream at h
  dsimp only at h
  split at h
  · rename_i hm
    obtain rfl := Option.some.inj h
    unfold getSource_ sourceInfo channelMap StreamSource.readBack
    dsimp only
    rw [hmap, if_pos hm]
    rfl
  · rename_i hm
    obtain ⟨mac, -, rfl⟩ := Option.map_eq_some_iff.mp h
    unfold getSource_ sourceInfo channelMap StreamSource.readBack
    dsimp only
    rw [hmap, if_neg hm]
    rfl

/-- **What `get_source` returns for a source that was stored.** -/
theorem getSource_stored {prep info : StreamInfo} (hprep : (Request.addSource env s).prepared host m = some prep)
    (hstored : Stored host (.addSource env s) prep info) : getSource_ s.id info = s.readBack host env := by
  rcases prepared_cases hprep with ⟨env', s', stream, hr, -, hstream, rfl⟩ | ⟨env', sink, hr, -⟩
  · cases hr
    have hread := getSource_sourceInfo (v := m.gSessionVersion) hstream
    obtain hinfo := storedSource_of_stored hstream hstored
    have hsingle : ¬ s.dualLeg host env → getSource_ s.id (sourceInfo host s stream m.gSessionVersion) = s.readBack host env := by
      intro hdual
      rw [hread, StreamSource.readBack, if_neg hdual, decide_eq_false hdual]
    cases hstored with
    | placed hlive => exact hsingle fun hdual => absurd (hinfo.dual.mpr hdual) Bool.false_ne_true
    | single h0 hlive hleg1 => exact hsingle fun hdual => absurd (hinfo.dual.mpr hdual) Bool.false_ne_true
    | dual leg1 h0 h1 hlive hleg1 =>
        have hdual : s.dualLeg host env := hinfo.dual.mp rfl
        have hdest : leg1.ui32DestIP = sourceDestIPSec host s := hinfo.dest1 rfl
        show { getSource_ s.id (sourceInfo host s stream m.gSessionVersion) with
          addressSec := Address.toText leg1.ui32DestIP, useSecondary := true } = s.readBack host env
        rw [hread, hdest, StreamSource.readBack, if_pos hdual, decide_eq_true hdual]
  · cases hr

/-- **`get_source` after `add_source`.** -/
theorem getSource_addSource (h : m.addSource host env s = some (.ok, m')) :
    m'.getSource s.id = some (s.readBack host env) := by
  obtain ⟨prep, info, hprep, hstored, htable⟩ := find?_of_serve_ok (addSource_books h) rfl
  have hfind : m'.sources.find? s.id = some info := (htable .source s.id).trans (if_pos ⟨rfl, rfl⟩)
  rw [getSource, hfind, Option.map_some, getSource_stored hprep hstored]

end SessionManager

open SessionManager

/-- **The settings of a source that is added are the ones that `get_source` returns if and only if
they fit**; and what it returns, added again, is returned again if and only if a secondary leg still
finds its interface. -/
theorem settings_kept_iff {m m' : SessionManager} (h : m.addSource host env s = some (.ok, m')) :
    ∃ g, m'.getSource s.id = some g ∧ (s.SettingsKept host g ↔ s.Fits host env) ∧
      ∀ (env' : Env) (n n' : SessionManager), n.addSource host env' g = some (.ok, n') →
        (n'.getSource g.id = some g ↔ (s.dualLeg host env → (env'.secondaryIp host).isSome = true)) := by
  refine ⟨_, getSource_addSource h, StreamSource.settingsKept_readBack_iff, ?_⟩
  intro env' n n' hagain
  rw [getSource_addSource hagain, Option.some_inj]
  exact StreamSource.readBack_readBack_iff

/-- A source without a secondary leg. -/
def singleSource : StreamSource := { stereoSource 1 "a".toList with useSecondary := false, address := "239.1.0.9".toList }

/-- Its settings are kept, and kept again. -/
theorem settings_kept_single : ∃ m' g, (create {}).addSource {} (.answering none (.ok 7) (.error (.driver 1)))
      singleSource = some (.ok, m') ∧ m'.getSource 1 = some g ∧ singleSource.SettingsKept {} g := by
  have hrun : ((create {}).addSource {} (.answering none (.ok 7) (.error (.driver 1))) singleSource).map Prod.fst =
      some .ok := by decide +kernel
  obtain ⟨⟨ret, m'⟩, h, rfl⟩ := Option.map_eq_some_iff.mp hrun
  obtain ⟨g, hg, hkept, -⟩ := settings_kept_iff h
  refine ⟨m', g, h, hg, hkept.mpr ⟨⟨by decide, by decide⟩, ⟨by decide, by decide⟩, by decide, ?_⟩⟩
  rintro (huse | ⟨a, ha⟩)
  · cases huse
  · exact absurd ha.symm (Address.toText_ne_nil a)

/-- A source that is to have a secondary leg, but is not in use. -/
def unusedSource : StreamSource :=
  { stereoSource 1 "a".toList with
    enabled := false
    address := "239.1.0.9".toList
    addressSec := "239.2.0.9".toList }

/-- It loses the leg and its address. -/
theorem unusedSource_not_kept : ∃ m' g, (create {}).addSource {} {} unusedSource = some (.ok, m') ∧
    m'.getSource 1 = some g ∧ unusedSource.useSecondary = true ∧ g.useSecondary = false ∧ g.addressSec = [] ∧
    ¬ unusedSource.SettingsKept {} g := by
  have hrun : ((create {}).addSource {} {} unusedSource).map Prod.fst = some .ok := by decide +kernel
  obtain ⟨⟨ret, m'⟩, h, rfl⟩ := Option.map_eq_some_iff.mp hrun
  exact ⟨m', _, h, getSource_addSource h, rfl, rfl, rfl, fun hkept => absurd hkept.useSecondary Bool.false_ne_true⟩

end Aes67Daemon
