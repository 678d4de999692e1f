import Aes67Daemon.Lib.Assign
import Aes67Daemon.Nmos.ChannelMap
import Aes67Daemon.Session.Prepared

/-!
# Crosspoints as assignments

What the channel mapping API changes are the channel maps of the streams: which ALSA
channel every channel of a source or a sink is on.  Seen this way the streams are a
memory whose cells are the channels, and a round of the second pass of an activation
is an assignment: the number of an ALSA channel, or of a channel of a sink, is written
to a channel of a source, or the number of an ALSA output to a channel of a sink.

`alsaAt_applyItem` connects the two levels: a round that ends well carries out its
assignment, and changes nothing else in the maps.

## Main definitions

* `StreamChannel`, `SessionManager.alsaAt` — the cells and what they hold.
* `Is08WorkItem.assign` — a round as an assignment.
* `SessionManager.Applied` — the round of an item ends well.
* `Request.Granted` — the outside world lets a stream be added.
-/
namespace Aes67Daemon

open Text

/-- A channel of a stream. -/
structure StreamChannel where
  kind : Kind
  id : UInt8
  index : ℕ
  deriving DecidableEq

/-- The channel map a request asks for. -/
def Request.channels : Request → List UInt8
  | .addSource _ source => source.map
  | .addSink _ sink => sink.map
  | .removeSource _ _ | .removeSink _ _ => []

namespace SessionManager
variable {host : Host} {s s' : SessionManager}

/-- The channel map of a stream, as it is read back. -/
def channels (s : SessionManager) : Kind → UInt8 → Option (List UInt8)
  | .source, id => (s.getSource id).map StreamSource.map
  | .sink, id => (s.getSink id).map StreamSink.map

/-- The ALSA channel a channel is on. -/
def alsaAt (s : SessionManager) (c : StreamChannel) : Option UInt8 :=
  (s.channels c.kind c.id).bind fun map => map[c.index]?

/-- How many channels a stream has. -/
def shape (s : SessionManager) (k : Kind) (id : UInt8) : Option ℕ :=
  (s.channels k id).map List.length

theorem channels_eq (k : Kind) (id : UInt8) :
    s.channels k id = ((s.books.table k).find? id).map fun info => channelMap info.stream.leg0 := by
  cases k
  · simp only [channels, getSource, Option.map_map]
    rfl
  · simp only [channels, getSink, Option.map_map]
    rfl

@[simp] theorem channels_source (id : UInt8) :
    s.channels .source id = (s.getSource id).map StreamSource.map := rfl

@[simp] theorem channels_sink (id : UInt8) : s.channels .sink id = (s.getSink id).map StreamSink.map := rfl

/-- A map that is read back has no more channels than a byte counts. -/
theorem length_channelMap (stream : TRTPStreamInfo) : (channelMap stream).length < 256 := by
  have hnb := stream.byNbOfChannels.toNat_lt
  simp only [channelMap, List.length_map, List.length_take]
  omega

theorem length_of_channels {k : Kind} {id : UInt8} {map : List UInt8} (h : s.channels k id = some map) :
    map.length < 256 := by
  rw [channels_eq, Option.map_eq_some_iff] at h
  obtain ⟨info, -, rfl⟩ := h
  exact length_channelMap _

/-! ## What requests do to the maps -/

/-- **A prepared record has the map that was asked for.** -/
theorem channelMap_prepared {r : Request} {info : StreamInfo} (h : r.prepared host s = some info)
    (hlen : r.channels.length < 256) : channelMap info.stream.leg0 = r.channels := by
  have hread : ∀ map : List UInt8, map.length < 256 →
      ((map.map UInt8.toUInt32).take (UInt8.ofNat map.length).toNat).map UInt32.toUInt8 = map := by
    intro map hmap
    have hbytes : ∀ c : UInt8, c.toUInt32.toUInt8 = c := fun c => by simp
    rw [UInt8.toNat_ofNat_of_lt' hmap, List.take_of_length_le (by simp), List.map_map]
    exact (List.map_congr_left fun c _ => hbytes c).trans (List.map_id _)
  rcases prepared_cases h with ⟨env, source, stream, rfl, -, hstream, rfl⟩ | ⟨env, sink, rfl, -, hp⟩
  · have hfields : stream.aui32Routing = source.map.map UInt8.toUInt32 ∧
        stream.byNbOfChannels = UInt8.ofNat source.map.length := by
      unfold sourceStream at hstream
      simp only at hstream
      split at hstream
      · cases hstream
        exact ⟨rfl, rfl⟩
      · obtain ⟨mac, -, rfl⟩ := Option.map_eq_some_iff.mp hstream
        exact ⟨rfl, rfl⟩
    rw [channelMap]
    simp only [sourceInfo, hfields.1, hfields.2]
    exact hread _ hlen
  · obtain ⟨-, sdp, parsed, -, hparsed, rfl⟩ := preparedSink_eq_ok hp
    have hkeep : parsed.stream.leg0.undescribed = (sinkInfo host sink).stream.leg0.undescribed :=
      congrArg (fun i => i.stream.leg0) (undescribed_parseSdp hparsed)
    have hrouting : parsed.stream.leg0.aui32Routing = sink.map.map UInt8.toUInt32 :=
      congrArg TRTPStreamInfo.aui32Routing hkeep
    have hnumber : parsed.stream.leg0.byNbOfChannels = UInt8.ofNat sink.map.length :=
      congrArg TRTPStreamInfo.byNbOfChannels hkeep
    rw [channelMap]
    simp only [sinkLeg, hrouting, hnumber]
    exact hread _ hlen

theorem leg0_stored {r : Request} {info info' : StreamInfo} (h : Stored host r info info') :
    channelMap info'.stream.leg0 = channelMap info.stream.leg0 := by
  cases h <;> rfl

/-- **A stream that is added successfully has its map**, and the other maps stay. -/
theorem channels_serve_ok {r : Request} (hr : r.removes = false) (hlen : r.channels.length < 256)
    (h : s.serve host r = some (.ok, s')) (k : Kind) (id : UInt8) :
    s'.channels k id = if k = r.kind ∧ id = r.id then some r.channels else s.channels k id := by
  obtain ⟨info, info', hprep, hstored, htable⟩ := find?_of_serve_ok (serve_books h) hr
  rw [channels_eq, htable]
  split
  · rw [Option.map_some, leg0_stored hstored, channelMap_prepared hprep hlen]
  · rw [channels_eq]

/-- What a request can leave of the maps: every stream has the map it had, or the one
that was asked for. -/
theorem channels_serve {r : Request} {ret : Ret} (hlen : r.channels.length < 256)
    (h : s.serve host r = some (ret, s')) {k : Kind} {id : UInt8} {map : List UInt8}
    (hmap : s'.channels k id = some map) :
    s.channels k id = some map ∨ (r.kind = k ∧ r.id = id ∧ map = r.channels) := by
  rw [channels_eq, Option.map_eq_some_iff] at hmap
  obtain ⟨info', hfind, rfl⟩ := hmap
  rcases find?_of_serve (serve_books h) hfind with hold | ⟨info, hk, hid, hprep, hstored⟩
  · left
    rw [channels_eq, hold]
    rfl
  · right
    exact ⟨hk, hid, by rw [leg0_stored hstored, channelMap_prepared hprep hlen]⟩

/-! ## Streams that are added again -/

end SessionManager

/-- The outside world lets a request add a stream: it can be prepared, and the driver
accepts the legs of a stream that is in use. -/
def Request.Granted (host : Host) (s : SessionManager) (r : Request) : Prop :=
  ∃ info, r.prepared host s = some info ∧ (r.kind.live info = true →
    (s.books.vacate host r.env r.kind r.id).driver.accepts r.env.replies.addFirst ∧
    ∀ h0 leg1, r.env.replies.addFirst = .ok h0 → r.secondLeg host info = some leg1 →
      ((s.books.vacate host r.env r.kind r.id).driver.hold h0 info.stream.leg0).accepts
        r.env.replies.addSecond)

namespace SessionManager
variable {host : Host} {s s' : SessionManager}

/-- **A stream is added again** exactly when the outside world lets it. -/
theorem serve_ok_iff {r : Request} {old : StreamInfo} (hr : r.removes = false)
    (hold : (s.books.table r.kind).find? r.id = some old) :
    (∃ s', s.serve host r = some (.ok, s')) ↔ r.Granted host s := by
  have hdefined : r.Defined host s := by
    intro info h0 leg1 _
    rw [hold]
    cases r <;> rfl
  obtain ⟨ret, s', hserve⟩ := serve_isSome hdefined
  have hbooks := serve_books hserve
  have hret : (∃ t, s.serve host r = some (.ok, t)) ↔ ret = .ok := by
    rw [hserve]
    simp
  rw [hret]
  generalize s'.books = b at hbooks
  cases hbooks with
  | unchanged hne hpre =>
      refine iff_of_false hne ?_
      rintro ⟨info, hprep, -⟩
      exact absurd (hold.symm.trans (hpre info hprep).1) (by simp)
  | removalFailed hrem => rw [hr] at hrem; cases hrem
  | removed hrem => rw [hr] at hrem; cases hrem
  | @admitted info _ _ hprep hname hadmit =>
      have huniq : ∀ info', r.prepared host s = some info' → info' = info := fun info' h =>
        Option.some.inj (h.symm.trans hprep)
      cases hadmit with
      | placed hlive =>
          refine iff_of_true rfl ⟨info, hprep, fun h => ?_⟩
          rw [hlive] at h
          cases h
      | refused hlive hfirst =>
          refine iff_of_false (by simp) ?_
          rintro ⟨info', hprep', hlegs⟩
          obtain rfl := huniq info' hprep'
          exact hfirst (hlegs hlive).1
      | undone hlive hfirst hfresh hleg1 hsecond hundo =>
          refine iff_of_false (by simp) ?_
          rintro ⟨info', hprep', hlegs⟩
          obtain rfl := huniq info' hprep'
          exact hsecond ((hlegs hlive).2 _ _ hfirst hleg1)
      | single hlive hfirst hfresh hleg1 =>
          have hreg := Request.registers_single hprep hname hlive hfirst hfresh hleg1
          exact iff_of_true rfl ⟨info, hprep, fun _ => ⟨hreg.first, hreg.second⟩⟩
      | dual hlive hfirst hfresh hleg1 hsecond hfresh1 =>
          have hreg := Request.registers_dual hprep hname hlive hfirst hfresh hsecond hfresh1
          exact iff_of_true rfl ⟨info, hprep, fun _ => ⟨hreg.first, hreg.second⟩⟩

end SessionManager

/-! ## Rounds as assignments -/

/-- What the round of an item with an input writes, and where. -/
def Is08WorkItem.assign (w : Is08WorkItem) : Assign StreamChannel (Option UInt8) :=
  if w.isSenderOutput then
    { target := ⟨.source, w.outputId, w.outputChannel.toNat⟩
      operand :=
        if w.inputIsSink then .cell ⟨.sink, w.inputId, w.inputChannel.toNat⟩
        else .const (some w.inputId) }
  else
    { target := ⟨.sink, w.inputId, w.inputChannel.toNat⟩
      operand := .const (some w.outputId) }

namespace Is08WorkItem
variable {w : Is08WorkItem}

theorem assign_source_sink (h : w.isSenderOutput = true) (hsink : w.inputIsSink = true) :
    w.assign = ⟨⟨.source, w.outputId, w.outputChannel.toNat⟩, .cell ⟨.sink, w.inputId, w.inputChannel.toNat⟩⟩ := by
  simp [assign, h, hsink]

theorem assign_source_alsa (h : w.isSenderOutput = true) (hsink : w.inputIsSink = false) :
    w.assign = ⟨⟨.source, w.outputId, w.outputChannel.toNat⟩, .const (some w.inputId)⟩ := by
  simp [assign, h, hsink]

theorem assign_sink (h : w.isSenderOutput = false) :
    w.assign = ⟨⟨.sink, w.inputId, w.inputChannel.toNat⟩, .const (some w.outputId)⟩ := by
  simp [assign, h]

theorem target_source (h : w.isSenderOutput = true) :
    w.assign.target = ⟨.source, w.outputId, w.outputChannel.toNat⟩ := by simp [assign, h]

theorem target_sink (h : w.isSenderOutput = false) :
    w.assign.target = ⟨.sink, w.inputId, w.inputChannel.toNat⟩ := by rw [assign_sink h]

theorem operand_sink (h : w.isSenderOutput = true) (hsink : w.inputIsSink = true) :
    w.assign.operand = .cell ⟨.sink, w.inputId, w.inputChannel.toNat⟩ := by rw [assign_source_sink h hsink]

theorem operand_alsa (h : w.isSenderOutput = true) (hsink : w.inputIsSink = false) :
    w.assign.operand = .const (some w.inputId) := by rw [assign_source_alsa h hsink]

theorem operand_output (h : w.isSenderOutput = false) : w.assign.operand = .const (some w.outputId) := by
  rw [assign_sink h]

end Is08WorkItem

/-- The assignments of the items that have an input. -/
def assignments (work : List Is08WorkItem) : List (Assign StreamChannel (Option UInt8)) :=
  (work.filter fun w => !w.clear).map Is08WorkItem.assign

namespace SessionManager
variable {host : Host} {env : Env} {w : Is08WorkItem} {r : Request} {s s' : SessionManager}

/-- What a round asks for: the stream of its target again, with the value of its operand
at its target. -/
structure ItemRequest (env : Env) (w : Is08WorkItem) (s : SessionManager) (r : Request) : Prop where
  clear : w.clear = false
  adds : r.removes = false
  env : r.env = env
  kind : r.kind = w.assign.target.kind
  id : r.id = w.assign.target.id
  channels : ∃ map c, s.channels r.kind r.id = some map ∧ w.assign.target.index < map.length ∧
    r.channels = map.set w.assign.target.index c ∧ w.assign.operand.eval s.alsaAt = some c

theorem setChannel?_eq_some {map map' : List UInt8} {i : ℤ} {c : UInt8} :
    setChannel? map i c = some map' ↔ 0 ≤ i ∧ i.toNat < map.length ∧ map' = map.set i.toNat c := by
  rw [setChannel?]
  split
  · rename_i h
    simp [h.1, h.2, eq_comm]
  · rename_i h
    simp only [reduceCtorEq, false_iff]
    exact fun hn => h ⟨hn.1, hn.2.1⟩

theorem channelAt?_eq_some {map : List UInt8} {i : ℤ} {c : UInt8} :
    channelAt? map i = some c ↔ 0 ≤ i ∧ map[i.toNat]? = some c := by
  rw [channelAt?]
  split
  · rename_i h
    simp [h]
  · rename_i h
    simp [h]

theorem itemRequest_eq_some (h : s.itemRequest env w = some (some r)) : ItemRequest env w s r := by
  unfold itemRequest at h
  split at h
  · rename_i hsender
    split at h
    · cases h
    · rename_i src hsrc
      split at h
      · cases h
      · rename_i hclear
        have hmap : s.channels .source w.outputId = some src.map := by simp [hsrc]
        split at h
        · rename_i hsink
          split at h
          · cases h
          · rename_i sink hget
            obtain ⟨c, hc, h⟩ := Option.bind_eq_some_iff.mp h
            obtain ⟨map, hset, h⟩ := Option.bind_eq_some_iff.mp h
            obtain ⟨-, hlt, rfl⟩ := setChannel?_eq_some.mp hset
            obtain ⟨-, hat⟩ := channelAt?_eq_some.mp hc
            cases h
            have hid : src.id = w.outputId := by
              obtain ⟨info, -, rfl⟩ := Option.map_eq_some_iff.mp hsrc
              rfl
            have hassign := Is08WorkItem.assign_source_sink hsender hsink
            exact
              { clear := by simpa using hclear
                adds := rfl
                env := rfl
                kind := by rw [hassign]; rfl
                id := by rw [hassign]; exact hid
                channels := ⟨src.map, c, by rw [← hmap, ← hid]; rfl, by rw [hassign]; exact hlt,
                  by rw [hassign]; rfl, by simp [hassign, alsaAt, hget, hat]⟩ }
        · rename_i hsink
          obtain ⟨map, hset, h⟩ := Option.bind_eq_some_iff.mp h
          obtain ⟨-, hlt, rfl⟩ := setChannel?_eq_some.mp hset
          cases h
          have hid : src.id = w.outputId := by
            obtain ⟨info, -, rfl⟩ := Option.map_eq_some_iff.mp hsrc
            rfl
          have hassign := Is08WorkItem.assign_source_alsa hsender (Bool.eq_false_iff.mpr hsink)
          exact
            { clear := by simpa using hclear
              adds := rfl
              env := rfl
              kind := by rw [hassign]; rfl
              id := by rw [hassign]; exact hid
              channels := ⟨src.map, w.inputId, by rw [← hmap, ← hid]; rfl, by rw [hassign]; exact hlt,
                by rw [hassign]; rfl, by rw [hassign]; rfl⟩ }
  · rename_i hsender
    split at h
    · cases h
    · rename_i hclear
      split at h
      · cases h
      · rename_i sink hget
        obtain ⟨map, hset, h⟩ := Option.bind_eq_some_iff.mp h
        obtain ⟨-, hlt, rfl⟩ := setChannel?_eq_some.mp hset
        cases h
        have hid : sink.id = w.inputId := by
          obtain ⟨info, -, rfl⟩ := Option.map_eq_some_iff.mp hget
          rfl
        have hmap : s.channels .sink w.inputId = some sink.map := by simp [hget]
        have hassign := Is08WorkItem.assign_sink (Bool.eq_false_iff.mpr hsender)
        exact
          { clear := by simpa using hclear
            adds := rfl
            env := rfl
            kind := by rw [hassign]; rfl
            id := by rw [hassign]; exact hid
            channels := ⟨sink.map, w.outputId, by rw [← hmap, ← hid]; rfl, by rw [hassign]; exact hlt,
              by rw [hassign]; rfl, by rw [hassign]; rfl⟩ }

/-- What a round asks for has as many channels as the stream. -/
theorem ItemRequest.length_eq (H : ItemRequest env w s r) {map : List UInt8} (hmap : s.channels r.kind r.id = some map) :
    r.channels.length = map.length := by
  obtain ⟨map', c, hmap', -, hchannels, -⟩ := H.channels
  rw [hchannels, List.length_set, Option.some.inj (hmap.symm.trans hmap')]

/-- What a round asks for has few enough channels. -/
theorem ItemRequest.length_lt (H : ItemRequest env w s r) : r.channels.length < 256 := by
  obtain ⟨map, c, hmap, -, hchannels, -⟩ := H.channels
  rw [hchannels, List.length_set]
  exact length_of_channels hmap

/-- **A stream that is added again with one channel changed**: that channel has the new
number, and every other one what it had. -/
theorem alsaAt_serve_set {map : List UInt8} {i : ℕ} {c : UInt8} (hr : r.removes = false)
    (hmap : s.channels r.kind r.id = some map) (hlt : i < map.length) (hchannels : r.channels = map.set i c)
    (h : s.serve host r = some (.ok, s')) : s'.alsaAt = Function.update s.alsaAt ⟨r.kind, r.id, i⟩ (some c) := by
  have hlen : r.channels.length < 256 := by
    rw [hchannels, List.length_set]
    exact length_of_channels hmap
  have hafter := channels_serve_ok hr hlen h
  funext d
  by_cases hd : d = ⟨r.kind, r.id, i⟩
  · subst hd
    rw [Function.update_self, alsaAt, hafter, if_pos ⟨rfl, rfl⟩, hchannels, Option.bind_some,
      List.getElem?_set_self hlt]
  · rw [Function.update_of_ne hd, alsaAt, alsaAt, hafter]
    split
    · rename_i heq
      have hother : i ≠ d.index := by
        rintro rfl
        obtain ⟨k, id, j⟩ := d
        obtain ⟨rfl, rfl⟩ := heq
        exact hd rfl
      rw [heq.1, heq.2, hmap, hchannels, Option.bind_some, Option.bind_some, List.getElem?_set_ne hother]
    · rfl

/-- **A round that ends well carries out its assignment.** -/
theorem ItemRequest.alsaAt_serve (H : ItemRequest env w s r) (h : s.serve host r = some (.ok, s')) :
    s'.alsaAt = w.assign.exec s.alsaAt := by
  obtain ⟨map, c, hmap, hlt, hchannels, hvalue⟩ := H.channels
  have htarget : (⟨r.kind, r.id, w.assign.target.index⟩ : StreamChannel) = w.assign.target := by
    rw [H.kind, H.id]
  rw [alsaAt_serve_set H.adds hmap hlt hchannels h, htarget, Assign.exec, hvalue]

end SessionManager

/-! ## The second pass -/

@[simp] theorem assignments_nil : assignments [] = [] := rfl

theorem assignments_cons (w : Is08WorkItem) (work : List Is08WorkItem) :
    assignments (w :: work) = if w.clear then assignments work else w.assign :: assignments work := by
  cases hclear : w.clear <;> simp [assignments, hclear]

theorem assignments_append (v w : List Is08WorkItem) : assignments (v ++ w) = assignments v ++ assignments w := by
  simp [assignments]

/-- No later item with an input writes to the channel that an item writes to. -/
def LastFor (w : Is08WorkItem) (after : List Is08WorkItem) : Prop :=
  ∀ v ∈ after, v.clear = false → v.assign.target ≠ w.assign.target

/-- **The last item for a channel decides** what is there. -/
theorem execAll_lastFor {m : StreamChannel → Option UInt8} {before after : List Is08WorkItem} {w : Is08WorkItem}
    (hclear : w.clear = false) (hlast : LastFor w after) :
    Assign.execAll m (assignments (before ++ w :: after)) w.assign.target =
      w.assign.operand.eval (Assign.execAll m (assignments before)) := by
  rw [assignments_append, assignments_cons, hclear, if_neg Bool.false_ne_true, Assign.execAll_last]
  intro b hb
  obtain ⟨v, hv, rfl⟩ := List.mem_map.mp hb
  obtain ⟨hmem, hv⟩ := List.mem_filter.mp hv
  exact hlast v hmem (by simpa using hv)

theorem rounds_cons (envs : ℕ → Env) (w : Is08WorkItem) (work : List Is08WorkItem) :
    rounds envs (w :: work) = (envs 0, w) :: rounds (fun n => envs (n + 1)) work := by
  simp [rounds, List.zipIdx_cons, List.zipIdx_succ, Function.comp_def]

namespace SessionManager
variable {host : Host} {env : Env} {w : Is08WorkItem} {s s' : SessionManager}

/-- The round of an item ends well: its stream is added again, changed. -/
def Applied (host : Host) (s : SessionManager) (w : Env × Is08WorkItem) : Prop :=
  w.2.clear = false → ∃ s', s.applyItem host w.1 w.2 = some (some .ok, s')

/-- The outside world lets the round of an item add the stream it asks for. -/
def ItemGranted (host : Host) (s : SessionManager) (w : Env × Is08WorkItem) : Prop :=
  ∀ r, s.itemRequest w.1 w.2 = some (some r) → r.Granted host s

/-- The channels an item speaks of exist. -/
def Ready (s : SessionManager) (w : Is08WorkItem) : Prop :=
  w.clear = false →
    (w.isSenderOutput = true → 0 ≤ w.outputChannel) ∧
    (w.isSenderOutput = false ∨ w.inputIsSink = true → 0 ≤ w.inputChannel) ∧
    (s.alsaAt w.assign.target).isSome ∧ (w.assign.operand.eval s.alsaAt).isSome

theorem itemRequest_clear (h : w.clear = true) : s.itemRequest env w = some none := by
  unfold itemRequest
  split
  · split <;> rfl
  · rfl

theorem alsaAt_isSome {c : StreamChannel} (h : (s.alsaAt c).isSome) :
    ∃ map, s.channels c.kind c.id = some map ∧ c.index < map.length := by
  obtain ⟨v, hv⟩ := Option.isSome_iff_exists.mp h
  obtain ⟨map, hmap, hat⟩ := Option.bind_eq_some_iff.mp hv
  exact ⟨map, hmap, (List.getElem?_eq_some_iff.mp hat).1⟩

/-- **An item whose channels exist has its stream added again.** -/
theorem Ready.itemRequest (H : Ready s w) (hclear : w.clear = false) (env : Env) :
    ∃ r, s.itemRequest env w = some (some r) := by
  obtain ⟨hout, hin, htarget, hoperand⟩ := H hclear
  obtain ⟨map, hmap, hlt⟩ := alsaAt_isSome htarget
  cases hsender : w.isSenderOutput with
  | true =>
      rw [Is08WorkItem.target_source hsender] at hmap hlt
      obtain ⟨src, hsrc, rfl⟩ := Option.map_eq_some_iff.mp hmap
      have hset : ∀ c, setChannel? src.map w.outputChannel c =
          some (src.map.set w.outputChannel.toNat c) := fun c => if_pos ⟨hout hsender, hlt⟩
      cases hsink : w.inputIsSink with
      | true =>
          rw [Is08WorkItem.operand_sink hsender hsink, Operand.eval_cell] at hoperand
          obtain ⟨map, hmap, hlt⟩ := alsaAt_isSome hoperand
          obtain ⟨sink, hget, rfl⟩ := Option.map_eq_some_iff.mp hmap
          have hat : channelAt? sink.map w.inputChannel = some sink.map[w.inputChannel.toNat] := by
            rw [channelAt?, if_pos (hin (.inr hsink)), List.getElem?_eq_getElem]
          simp [SessionManager.itemRequest, hsender, hsrc, hclear, hsink, hget, hat, hset]
      | false => simp [SessionManager.itemRequest, hsender, hsrc, hclear, hsink, hset]
  | false =>
      rw [Is08WorkItem.target_sink hsender] at hmap hlt
      obtain ⟨sink, hget, rfl⟩ := Option.map_eq_some_iff.mp hmap
      have hset : setChannel? sink.map w.inputChannel w.outputId =
          some (sink.map.set w.inputChannel.toNat w.outputId) := if_pos ⟨hin (.inl hsender), hlt⟩
      simp [SessionManager.itemRequest, hsender, hclear, hget, hset]

/-- **A round ends well** exactly when the outside world lets it. -/
theorem Ready.applied_iff (H : Ready s w) : Applied host s (env, w) ↔ ItemGranted host s (env, w) := by
  cases hclear : w.clear with
  | true =>
      refine iff_of_true (fun h => ?_) (fun r hr => ?_)
      · rw [hclear] at h
        cases h
      · rw [itemRequest_clear hclear] at hr
        cases hr
  | false =>
      obtain ⟨r, hr⟩ := H.itemRequest hclear env
      have hspec := itemRequest_eq_some hr
      obtain ⟨map, -, hmap, -⟩ := hspec.channels
      rw [channels_eq, Option.map_eq_some_iff] at hmap
      obtain ⟨old, hold, -⟩ := hmap
      have hok : (∃ s', s.serve host r = some (.ok, s')) ↔ r.Granted host s := serve_ok_iff hspec.adds hold
      have happly : s.applyItem host env w = (s.serve host r).map fun served => (some served.1, served.2) := by
        rw [applyItem, hr, Option.bind_some]
      constructor
      · intro happlied r' hr'
        obtain rfl := Option.some.inj (Option.some.inj (hr.symm.trans hr'))
        obtain ⟨s', hs'⟩ := happlied hclear
        rw [happly] at hs'
        obtain ⟨⟨ret, t⟩, hserve, heq⟩ := Option.map_eq_some_iff.mp hs'
        simp only [Prod.mk.injEq, Option.some.injEq] at heq
        obtain ⟨rfl, rfl⟩ := heq
        exact hok.mp ⟨t, hserve⟩
      · intro hgranted _
        obtain ⟨s', hs'⟩ := hok.mpr (hgranted r hr)
        exact ⟨s', by rw [happly, hs']; rfl⟩

/-- **One round of the second pass**: it carries out the assignment of its item, and
every stream stays. -/
theorem Ready.applyStep (H : Ready s w) (happlied : Applied host s (env, w)) :
    ∃ s', s.applyStep host (env, w) = some s' ∧
      s'.alsaAt = Assign.execAll s.alsaAt (assignments [w]) ∧
      (∀ k id, (s'.channels k id).isSome = (s.channels k id).isSome) ∧
      ∀ c, (s'.alsaAt c).isSome = (s.alsaAt c).isSome := by
  cases hclear : w.clear with
  | true =>
      refine ⟨s, ?_, ?_, fun _ _ => rfl, fun _ => rfl⟩
      · simp [SessionManager.applyStep, applyItem, itemRequest_clear hclear]
      · simp [assignments_cons, hclear]
  | false =>
      obtain ⟨s', hs'⟩ := happlied hclear
      obtain ⟨r, hr⟩ := H.itemRequest hclear env
      have hspec := itemRequest_eq_some hr
      have hserve : s.serve host r = some (.ok, s') := by
        rw [applyItem, hr, Option.bind_some] at hs'
        obtain ⟨⟨ret, t⟩, hserve, heq⟩ := Option.map_eq_some_iff.mp hs'
        simp only [Prod.mk.injEq, Option.some.injEq] at heq
        obtain ⟨rfl, rfl⟩ := heq
        exact hserve
      have halsa := hspec.alsaAt_serve hserve
      refine ⟨s', by simp [SessionManager.applyStep, hs'], ?_, fun k id => ?_, fun c => ?_⟩
      · simp [assignments_cons, hclear, halsa]
      · obtain ⟨map, -, hmap, -⟩ := hspec.channels
        rw [channels_serve_ok hspec.adds hspec.length_lt hserve]
        split
        · rename_i heq
          rw [heq.1, heq.2, hmap]
          rfl
        · rfl
      · rw [halsa]
        by_cases hc : c = w.assign.target
        · subst hc
          rw [Assign.exec_target, (H hclear).2.2.1, (H hclear).2.2.2]
        · rw [Assign.exec_of_ne hc]

/-- Whether the channels of an item exist depends on which channels there are only. -/
theorem Ready.of_isSome (H : Ready s w) (h : ∀ c, (s'.alsaAt c).isSome = (s.alsaAt c).isSome) :
    Ready s' w := by
  intro hclear
  obtain ⟨hout, hin, htarget, hoperand⟩ := H hclear
  refine ⟨hout, hin, by rw [h, htarget], ?_⟩
  cases hop : w.assign.operand with
  | const a => rw [hop] at hoperand; exact hoperand
  | cell c => rw [hop] at hoperand; rw [Operand.eval_cell, h]; exact hoperand

/-- **The second pass carries out the assignments of its items in order**, if every round
ends well, and every stream stays. -/
theorem run_rounds {work : List Is08WorkItem} {envs : ℕ → Env} (hready : ∀ w ∈ work, Ready s w)
    (happlied : Along (SessionManager.applyStep host) (Applied host) s (rounds envs work)) :
    ∃ s', run (SessionManager.applyStep host) s (rounds envs work) = some s' ∧
      s'.alsaAt = Assign.execAll s.alsaAt (assignments work) ∧
      (∀ k id, (s'.channels k id).isSome = (s.channels k id).isSome) ∧
      ∀ c, (s'.alsaAt c).isSome = (s.alsaAt c).isSome := by
  induction work generalizing s envs with
  | nil => exact ⟨s, rfl, rfl, fun _ _ => rfl, fun _ => rfl⟩
  | cons w work ih =>
      rw [rounds_cons] at happlied ⊢
      obtain ⟨hfirst, hrest⟩ := along_cons.mp happlied
      have hw := hready w List.mem_cons_self
      obtain ⟨s₁, hs₁, halsa₁, hkeep₁, hsome₁⟩ := hw.applyStep hfirst
      have hready₁ : ∀ v ∈ work, Ready s₁ v := fun v hv =>
        (hready v (List.mem_cons_of_mem _ hv)).of_isSome hsome₁
      obtain ⟨s', hrun, halsa, hkeep, hsome⟩ := ih hready₁ (hrest s₁ hs₁)
      refine ⟨s', by rw [run_cons, hs₁]; exact hrun, ?_, fun k id => (hkeep k id).trans (hkeep₁ k id),
        fun c => (hsome c).trans (hsome₁ c)⟩
      rw [halsa, halsa₁, ← Assign.execAll_append]
      congr 1
      cases hclear : w.clear <;> simp [assignments_cons, hclear]

/-- **Every round ends well** exactly when the outside world lets every round. -/
theorem along_applied_iff {work : List Is08WorkItem} {envs : ℕ → Env} (hready : ∀ w ∈ work, Ready s w) :
    Along (SessionManager.applyStep host) (Applied host) s (rounds envs work) ↔
      Along (SessionManager.applyStep host) (ItemGranted host) s (rounds envs work) := by
  induction work generalizing s envs with
  | nil => exact iff_of_true trivial trivial
  | cons w work ih =>
      rw [rounds_cons, along_cons, along_cons]
      have hw := hready w List.mem_cons_self
      rw [hw.applied_iff]
      refine and_congr_right fun hgranted => ?_
      obtain ⟨s₁, hs₁, -, -, hsome₁⟩ := hw.applyStep (hw.applied_iff.mpr hgranted)
      have hready₁ : ∀ v ∈ work, Ready s₁ v := fun v hv =>
        (hready v (List.mem_cons_of_mem _ hv)).of_isSome hsome₁
      have hrest := @ih s₁ (fun n => envs (n + 1)) hready₁
      constructor
      · intro h t ht
        obtain rfl := Option.some.inj (hs₁.symm.trans ht)
        exact hrest.mp (h s₁ hs₁)
      · intro h t ht
        obtain rfl := Option.some.inj (hs₁.symm.trans ht)
        exact hrest.mpr (h s₁ hs₁)

end SessionManager

end Aes67Daemon
