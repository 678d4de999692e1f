import Aes67Daemon.Session.Events
import Aes67Daemon.Session.SdpWrites
import Aes67Daemon.Session.SourceSettings

/-!
# Streams that can be added again as they are

What `get_source` and `get_sink` return is a lossy record of what was asked for, and adding
it again works all of it out once more: addresses, TTL, the secondary leg, the names, the
description of a sink.  A record is settled when this comes to the same record.  What was
stored in a run is settled as long as the secondary interface keeps its address and the
grandmaster and the domain stay, and it stays settled with other channels.

## Main definitions

* `StreamSource.Settled`, `StreamSink.Settled` — added again, the record is returned again.
* `SessionManager.Settled` — all streams are settled.
* `SessionManager.AddedAlike` — a stream that is there was added in the present circumstances.
* `settled_of_run` — then all streams are settled.
-/
namespace Aes67Daemon

open Text

/-! ## Descriptions that are read again -/

namespace SdpParser
variable {host : Host} {ptp ptp' : Ptp}

theorem tsRefclk_congr (hgmid : ptp'.status.gmid = ptp.status.gmid) (hdomain : ptp'.config.domain = ptp.config.domain)
    (p : SdpParser) (value : Text) : p.tsRefclk ptp' value = p.tsRefclk ptp value := by
  unfold tsRefclk
  rw [hgmid, hdomain]

theorem line_congr (hgmid : ptp'.status.gmid = ptp.status.gmid) (hdomain : ptp'.config.domain = ptp.config.domain)
    (p : SdpParser) (raw : Text) : p.line host ptp' raw = p.line host ptp raw := by
  unfold line attributeLine mediaAttribute
  simp only [tsRefclk_congr hgmid hdomain]

theorem lines_congr (hgmid : ptp'.status.gmid = ptp.status.gmid) (hdomain : ptp'.config.domain = ptp.config.domain)
    (ls : List Text) (p : SdpParser) : p.lines host ptp' ls = p.lines host ptp ls := by
  induction ls generalizing p with
  | nil => rfl
  | cons l ls ih => simp only [lines, line_congr hgmid hdomain, ih]

end SdpParser

section
variable {host : Host} {ptp ptp' : Ptp} {sdp : Text} {info parsed : StreamInfo}

/-- **Of the PTP state a description is compared with the grandmaster and the domain only.** -/
theorem parseSdp_congr (hgmid : ptp'.status.gmid = ptp.status.gmid) (hdomain : ptp'.config.domain = ptp.config.domain) :
    parseSdp host ptp' sdp info = parseSdp host ptp sdp info := by
  rw [parseSdp, parseSdp, SdpParser.lines_congr hgmid hdomain]

/-- **Whether a description is accepted does not depend on the records** it is read into. -/
theorem parseSdp_withStream {legs : Legs TRTPStreamInfo} (hlegs : legs.payloads = info.stream.payloads)
    (h : parseSdp host ptp sdp info = .ok parsed) :
    ∃ parsed', parseSdp host ptp sdp { info with stream := legs } = .ok parsed' := by
  obtain ⟨p, hp, -⟩ := Parsed.bind_eq_ok.mp h
  have hlines : (SdpParser.swap { info := info } legs false).lines host ptp (getLines sdp) = _ :=
    SdpParser.lines_swap hlegs hp
  exact ⟨_, Parsed.bind_eq_ok.mpr ⟨_, hlines, rfl⟩⟩

end

/-! ## Settled records -/

namespace StreamSource
variable {host : Host} {env : Env} {sec : Option UInt32} {s : StreamSource}

/-- What is returned for a source is the source itself, while the secondary interface has
the address `sec`, and its map fits into the driver's record. -/
structure Settled (host : Host) (sec : Option UInt32) (s : StreamSource) : Prop where
  readBack : ∀ env : Env, env.secondaryIp host = sec → s.readBack host env = s
  fits : s.map.length ≤ host.routingSize

theorem settled_readBack (hsec : env.secondaryIp host = sec) (hfits : s.map.length ≤ host.routingSize) :
    (s.readBack host env).Settled host sec where
  readBack env' hsec' := by
    rw [readBack_readBack_iff]
    intro hdual
    rw [hsec', ← hsec]
    exact hdual.2.2
  fits := le_trans (List.length_take_le' _ _) hfits

/-- **A settled source is settled with other channels.** -/
theorem Settled.withMap (H : s.Settled host sec) {map : List UInt8} (hmap : map.length < 256)
    (hfits : map.length ≤ host.routingSize) : ({ s with map := map } : StreamSource).Settled host sec where
  readBack env hsec := by
    have hrest : ({ s with map := map } : StreamSource).readBack host env =
        { s.readBack host env with map := map.take (map.length % 256) } := rfl
    rw [hrest, H.readBack env hsec, Nat.mod_eq_of_lt hmap, List.take_length]
  fits := hfits

end StreamSource

namespace StreamSink
variable {host : Host} {ptp ptp' : Ptp} {sdp : Text} {s : StreamSink}

/-- The settings that are returned for a sink with a description. -/
def readBack (host : Host) (sdp : Text) (s : StreamSink) : StreamSink :=
  { s with
    name := cStr host.nameSize s.name
    useSdp := true
    sdp := sdp
    map := s.map.take (s.map.length % 256) }

/-- What is returned for a sink is the sink itself, its map fits into the driver's record, and its
description is accepted. -/
structure Settled (host : Host) (ptp : Ptp) (s : StreamSink) : Prop where
  readBack : s.readBack host s.sdp = s
  fits : s.map.length ≤ host.routingSize
  accepted : ∃ parsed, parseSdp host ptp s.sdp (SessionManager.sinkInfo host s) = .ok parsed

theorem Settled.congr (H : s.Settled host ptp) (hgmid : ptp'.status.gmid = ptp.status.gmid)
    (hdomain : ptp'.config.domain = ptp.config.domain) : s.Settled host ptp' :=
  ⟨H.readBack, H.fits, by rw [parseSdp_congr hgmid hdomain]; exact H.accepted⟩

/-- **A settled sink is settled with other channels.** -/
theorem Settled.withMap (H : s.Settled host ptp) {map : List UInt8} (hmap : map.length < 256)
    (hfits : map.length ≤ host.routingSize) : ({ s with map := map } : StreamSink).Settled host ptp := by
  obtain ⟨parsed, hparsed⟩ := H.accepted
  refine ⟨?_, hfits, ?_⟩
  · have hrest : ({ s with map := map } : StreamSink).readBack host s.sdp =
        { s.readBack host s.sdp with map := map.take (map.length % 256) } := rfl
    rw [hrest, H.readBack, Nat.mod_eq_of_lt hmap, List.take_length]
  · have hlegs : (SessionManager.sinkInfo host { s with map := map }).stream.payloads =
        (SessionManager.sinkInfo host s).stream.payloads := rfl
    have haccepted := parseSdp_withStream hlegs hparsed
    exact haccepted

/-- A settled sink can be prepared again. -/
theorem Settled.preparedSink (H : s.Settled host ptp) (env : Env) :
    ∃ info, SessionManager.preparedSink host env ptp s = .ok info := by
  obtain ⟨parsed, hparsed⟩ := H.accepted
  have huse : s.useSdp = true := by
    rw [← H.readBack]
    rfl
  rw [SessionManager.preparedSink, if_neg (not_lt.mpr H.fits), SessionManager.sinkSdpText, if_pos huse]
  dsimp only
  rw [hparsed]
  exact ⟨_, rfl⟩

theorem settled_readBack {parsed : StreamInfo} (hfits : s.map.length ≤ host.routingSize)
    (h : parseSdp host ptp sdp (SessionManager.sinkInfo host s) = .ok parsed) :
    (s.readBack host sdp).Settled host ptp := by
  have hlength : (s.readBack host sdp).map.length < 256 := by
    show (s.map.take (s.map.length % 256)).length < 256
    rw [List.length_take]
    omega
  refine ⟨?_, le_trans (List.length_take_le' _ _) hfits, ?_⟩
  · show ({ s with
      name := cStr host.nameSize (cStr host.nameSize s.name)
      useSdp := true
      sdp := sdp
      map := (s.readBack host sdp).map.take ((s.readBack host sdp).map.length % 256) } : StreamSink) = _
    rw [cStr_cStr, Nat.mod_eq_of_lt hlength, List.take_length]
    rfl
  · have hlegs : (SessionManager.sinkInfo host (s.readBack host sdp)).stream.payloads =
        (SessionManager.sinkInfo host s).stream.payloads := rfl
    have haccepted := parseSdp_withStream hlegs h
    exact haccepted

end StreamSink

namespace SessionManager
variable {host : Host} {s s' : SessionManager}

/-! ## What is returned for a stored stream -/

/-- **What `get_sink` returns for a sink that was stored.** -/
theorem getSink_stored {env : Env} {sink : StreamSink} {info info' : StreamInfo}
    (hprep : (Request.addSink env sink).prepared host s = some info)
    (hstored : Stored host (.addSink env sink) info info') :
    ∃ sdp parsed, sinkSdpText host env sink = .ok sdp ∧ parseSdp host s.ptp sdp (sinkInfo host sink) = .ok parsed ∧
      getSink_ sink.id info' = sink.readBack host sdp := by
  have hsame : getSink_ sink.id info' = getSink_ sink.id info := by
    cases hstored <;> rfl
  rcases prepared_cases hprep with ⟨_, _, _, hr, -⟩ | ⟨_, _, hr, -, hp⟩
  · cases hr
  · cases hr
    obtain ⟨-, sdp, parsed, htext, hparsed, rfl⟩ := preparedSink_eq_ok hp
    refine ⟨sdp, parsed, htext, hparsed, ?_⟩
    have hkeep := undescribed_parseSdp hparsed
    have hname : parsed.stream.leg0.cName = cStr host.nameSize sink.name :=
      congrArg (fun i => i.stream.leg0.cName) hkeep
    have hdelay : parsed.stream.leg0.ui32PlayOutDelay = sink.delay :=
      congrArg (fun i => i.stream.leg0.ui32PlayOutDelay) hkeep
    have hio : parsed.io = sink.io := congrArg StreamInfo.io hkeep
    have hignore : parsed.ignoreRefclkGmid = sink.ignoreRefclkGmid := congrArg StreamInfo.ignoreRefclkGmid hkeep
    have hrouting : parsed.stream.leg0.aui32Routing = sink.map.map UInt8.toUInt32 :=
      congrArg (fun i => i.stream.leg0.aui32Routing) hkeep
    have hnumber : parsed.stream.leg0.byNbOfChannels = UInt8.ofNat sink.map.length :=
      congrArg (fun i => i.stream.leg0.byNbOfChannels) hkeep
    have hback : UInt32.toUInt8 ∘ UInt8.toUInt32 = id := funext UInt8.toUInt8_toUInt32
    have hmap : channelMap parsed.stream.leg0 = sink.map.take (sink.map.length % 256) := by
      rw [channelMap, hrouting, hnumber, ← List.map_take, List.map_map, UInt8.toNat_ofNat', hback, List.map_id]
    rw [hsame]
    show ({ id := sink.id
            name := parsed.stream.leg0.cName
            io := parsed.io
            useSdp := true
            source := sink.source
            sdp := sdp
            delay := parsed.stream.leg0.ui32PlayOutDelay
            ignoreRefclkGmid := parsed.ignoreRefclkGmid
            map := channelMap parsed.stream.leg0 } : StreamSink) = _
    rw [hname, hdelay, hio, hignore, hmap]
    rfl

/-- **What `get_sink` returns after `add_sink`.** -/
theorem getSink_addSink {env : Env} {sink : StreamSink} (huse : sink.useSdp = true)
    (h : s.addSink host env sink = (.ok, s')) : s'.getSink sink.id = some (sink.readBack host sink.sdp) := by
  obtain ⟨prep, info, hprep, hstored, htable⟩ := find?_of_serve_ok (addSink_books h) rfl
  have hfind : s'.sinks.find? sink.id = some info := (htable .sink sink.id).trans (if_pos ⟨rfl, rfl⟩)
  obtain ⟨sdp, parsed, htext, -, hread⟩ := getSink_stored hprep hstored
  rw [sinkSdpText, if_pos huse] at htext
  rw [getSink, hfind, Option.map_some, hread, Except.ok.inj htext]

/-- **Everything that is stored was stored by a request**; its version may have been raised since. -/
theorem exists_added {env : Env} {now : ℕ} {events : List Event} {P : SessionManager → Event → Prop}
    (H : Along (occur host) P (start host env now) events)
    (hrun : run (occur host) (start host env now) events = some s) {k : Kind} {id : UInt8} {info' : StreamInfo}
    (hfind : (s.books.table k).find? id = some info') :
    ∃ σ r info stored, P σ (.request r) ∧ r.kind = k ∧ r.id = id ∧ r.prepared host σ = some info ∧
      Stored host r info stored ∧ ∃ v, info' = { stored with sessionVersion := v } := by
  have hstart : ∀ k id info', ((start host env now).books.table k).find? id = some info' →
      ∃ σ r info stored, P σ (.request r) ∧ r.kind = k ∧ r.id = id ∧ r.prepared host σ = some info ∧
        Stored host r info stored ∧ ∃ v, info' = { stored with sessionVersion := v } := by
    intro k id info' hf
    cases k <;> cases hf
  refine run_keeps (J := fun s => ∀ k id info', (s.books.table k).find? id = some info' →
    ∃ σ r info stored, P σ (.request r) ∧ r.kind = k ∧ r.id = id ∧ r.prepared host σ = some info ∧
      Stored host r info stored ∧ ∃ v, info' = { stored with sessionVersion := v }) ?_ hstart H hrun k id info' hfind
  intro s e s' hJ hP hocc k id info' hf
  rcases find?_of_occur hocc hf with hold | ⟨_, _, info, -, -, rfl, hinfo, rfl⟩ | ⟨r, info, rfl, hk, hid, hprep, hstored⟩
  · exact hJ k id info' hold
  · obtain ⟨σ, r, prep, stored, hP, hk, hid, hprep, hstored, v, rfl⟩ := hJ .source id info hinfo
    exact ⟨σ, r, prep, stored, hP, hk, hid, hprep, hstored, _, rfl⟩
  · exact ⟨s, r, info, info', hP, hk, hid, hprep, hstored, info'.sessionVersion, rfl⟩

/-! ## Settled states -/

/-- All streams are settled. -/
structure Settled (host : Host) (sec : Option UInt32) (s : SessionManager) : Prop where
  range : s.InRange
  source : ∀ id src, s.getSource id = some src → src.Settled host sec
  sink : ∀ id sink, s.getSink id = some sink → sink.Settled host s.ptp

/-- A source that is there was added when the secondary interface had the address `sec`, and
a sink when the grandmaster and the domain were the present ones. -/
def AddedAlike (host : Host) (sec : Option UInt32) (s σ : SessionManager) : Event → Prop
  | .request (.addSource env source) => (s.getSource source.id).isSome → env.secondaryIp host = sec
  | .request (.addSink _ sink) => (s.getSink sink.id).isSome →
      σ.ptp.status.gmid = s.ptp.status.gmid ∧ σ.ptp.config.domain = s.ptp.config.domain
  | _ => True

/-- **What was stored in a run is settled** if the circumstances stay. -/
theorem settled_of_run {env : Env} {now : ℕ} {events : List Event} {sec : Option UInt32}
    (hrun : run (occur host) (start host env now) events = some s)
    (H : Along (occur host) (AddedAlike host sec s) (start host env now) events) : s.Settled host sec where
  range := by
    refine run_keeps (P := fun _ _ => True) ?_ (inRange_start now) (along_of_forall fun _ _ => trivial) hrun
    intro s e s' hrange _ hocc
    exact inRange_occur hrange hocc
  source id src hsrc := by
    have hthere : (s.getSource id).isSome := by rw [hsrc]; rfl
    obtain ⟨info', hfind, rfl⟩ := Option.map_eq_some_iff.mp hsrc
    obtain ⟨σ, r, info, stored, hP, hk, rfl, hprep, hstored, v, rfl⟩ := exists_added H hrun (k := .source) hfind
    rcases prepared_cases hprep with ⟨env', source, stream, rfl, hid, -⟩ | ⟨env', sink, rfl, -⟩
    · have hread := getSource_stored hprep hstored
      show (getSource_ source.id stored).Settled host sec
      rw [hread]
      exact StreamSource.settled_readBack (hP hthere) hid.2
    · cases hk
  sink id sink hsink := by
    have hthere : (s.getSink id).isSome := by rw [hsink]; rfl
    obtain ⟨info', hfind, rfl⟩ := Option.map_eq_some_iff.mp hsink
    obtain ⟨σ, r, info, stored, hP, hk, rfl, hprep, hstored, v, rfl⟩ := exists_added H hrun (k := .sink) hfind
    rcases prepared_cases hprep with ⟨env', source, stream, rfl, -⟩ | ⟨env', sink, rfl, -, hp⟩
    · cases hk
    · have hfits := (preparedSink_eq_ok hp).1
      obtain ⟨sdp, parsed, -, hparsed, hread⟩ := getSink_stored hprep hstored
      obtain ⟨hgmid, hdomain⟩ := hP hthere
      show (getSink_ sink.id stored).Settled host s.ptp
      rw [hread]
      exact (StreamSink.settled_readBack hfits hparsed).congr hgmid.symm hdomain.symm

/-! ## Runs of requests -/

theorem ptp_of_run {rs : List Request} (hrun : run (occur host) s (rs.map .request) = some s') : s'.ptp = s.ptp := by
  induction rs generalizing s with
  | nil =>
      obtain rfl := Option.some.inj hrun
      rfl
  | cons r rs ih =>
      rw [List.map_cons, run_cons] at hrun
      obtain ⟨s₁, hs₁, hrun⟩ := Option.bind_eq_some_iff.mp hrun
      obtain ⟨⟨ret, t⟩, hserve, rfl⟩ := Option.map_eq_some_iff.mp hs₁
      have hptp : t.ptp = s.ptp := congrArg Outside.ptp (serve_outside hserve).1
      exact (ih hrun).trans hptp

/-- **Requests alone** do not change the circumstances. -/
theorem along_addedAlike {rs : List Request} {sec : Option UInt32} (hsec : ∀ r ∈ rs, r.env.secondaryIp host = sec)
    (hrun : run (occur host) s (rs.map .request) = some s') :
    Along (occur host) (AddedAlike host sec s') s (rs.map .request) := by
  induction rs generalizing s with
  | nil => trivial
  | cons r rs ih =>
      have hptp := ptp_of_run hrun
      rw [List.map_cons] at hrun ⊢
      refine along_cons.mpr ⟨?_, fun s₁ hs₁ => ih (fun r' hr' => hsec r' (List.mem_cons_of_mem _ hr')) ?_⟩
      · cases r with
        | addSource env source => exact fun _ => hsec _ List.mem_cons_self
        | addSink env sink => exact fun _ => by rw [hptp]; exact ⟨rfl, rfl⟩
        | removeSource env id => trivial
        | removeSink env id => trivial
      · rw [run_cons, hs₁] at hrun
        exact hrun

end SessionManager
end Aes67Daemon
