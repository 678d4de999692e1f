import Aes67Daemon.Lib.Ptree
import Aes67Daemon.Lib.Run
import Aes67Daemon.Nmos.Resources

/-!
# IS-08 channel mapping

The Channel Mapping API of `nmos_is08.cpp`.  Its inputs are the sinks and the ALSA
capture channels, its outputs the sources and the ALSA playback channels; a
crosspoint connects a channel of an output to a channel of an input.  No crosspoint
is stored: the active map is worked out from the channel maps of the sources and
sinks, and an activation changes these.

`is08_apply_action_json` goes through an action twice.  The first pass looks up and
checks every entry; the second applies the entries one after another, each by
reading a stream and adding it again with one channel changed.

Boost's JSON reader is the parameter `readJson`.  An access to a channel outside a
map has no defined outcome, and there the result is `none`.

## Main definitions

* `CmHost` — what stays fixed, with the ids of inputs and outputs.
* `CmHost.is08MapActiveJson` — the active map.
* `CmHost.resolveAction` — the first pass; `canonicalJson` — what it writes down.
* `SessionManager.itemRequest`, `applyItem` — one round of the second pass.
* `CmHost.is08ApplyActionJson` — both passes.
-/
namespace Aes67Daemon

open Text

/-! ## Ids -/

/-- What stays fixed while the channel mapping API serves requests. -/
structure CmHost extends NmosHost where
  /-- `config_->get_alsa_channels`. -/
  alsaChannels : UInt8 := 64

namespace CmHost

/-- `is08_input_id`. -/
def is08InputId (h : CmHost) (sinkId : UInt8) : Text := h.makeResourceUuid "cm_input".toList sinkId

/-- `is08_output_id`. -/
def is08OutputId (h : CmHost) (sourceId : UInt8) : Text :=
  h.makeResourceUuid "cm_output".toList sourceId

/-- `is08_alsa_input_id`. -/
def is08AlsaInputId (h : CmHost) (channel : UInt8) : Text :=
  h.makeResourceUuid "cm_alsa_in".toList channel

/-- `is08_alsa_output_id`. -/
def is08AlsaOutputId (h : CmHost) (channel : UInt8) : Text :=
  h.makeResourceUuid "cm_alsa_out".toList channel

/-- The ALSA channels. -/
def alsaChannelList (h : CmHost) : List UInt8 := (List.range h.alsaChannels.toNat).map UInt8.ofNat

/-- `find_cm_input_sink_id`. -/
def findCmInputSinkId (h : CmHost) (s : SessionManager) (uuid : Text) : Option UInt8 :=
  (s.getSinks.find? fun sink => h.is08InputId sink.id == uuid).map StreamSink.id

/-- `find_cm_output_source_id`. -/
def findCmOutputSourceId (h : CmHost) (s : SessionManager) (uuid : Text) : Option UInt8 :=
  (s.getSources.find? fun src => h.is08OutputId src.id == uuid).map StreamSource.id

/-- `find_alsa_input_channel`. -/
def findAlsaInputChannel (h : CmHost) (uuid : Text) : Option UInt8 :=
  h.alsaChannelList.find? fun ch => h.is08AlsaInputId ch == uuid

/-- `find_alsa_output_channel`. -/
def findAlsaOutputChannel (h : CmHost) (uuid : Text) : Option UInt8 :=
  h.alsaChannelList.find? fun ch => h.is08AlsaOutputId ch == uuid

end CmHost

/-! ## The active map -/

/-- `find_sink_for_alsa_channel`: the first sink with a channel on an ALSA channel, and
the first such channel of it. -/
def SessionManager.findSinkForAlsaChannel (s : SessionManager) (alsaChannel : UInt8) :
    Option (UInt8 × ℕ) :=
  s.getSinks.findSome? fun sink =>
    (sink.map.findIdx? (· == alsaChannel)).map fun k => (sink.id, k)

namespace CmHost

/-- The `input` and the `channel_index` of a channel of a source. -/
def sourceInput (h : CmHost) (s : SessionManager) (alsaChannel : UInt8) : Text × ℕ :=
  match s.findSinkForAlsaChannel alsaChannel with
  | some (sinkId, sinkChannel) => (h.is08InputId sinkId, sinkChannel)
  | none => (h.is08AlsaInputId alsaChannel, 0)

/-- The `input` and the `channel_index` of an ALSA output; `none` stands for `null`. -/
def alsaInput (h : CmHost) (s : SessionManager) (alsaChannel : UInt8) : Option (Text × ℕ) :=
  (s.findSinkForAlsaChannel alsaChannel).map fun found => (h.is08InputId found.1, found.2)

/-- The `map` of `is08_map_active_json`: every output with its channels. -/
def is08MapActiveJson (h : CmHost) (s : SessionManager) :
    List (Text × List (ℕ × Option (Text × ℕ))) :=
  (s.getSources.map fun src =>
    (h.is08OutputId src.id, src.map.zipIdx.map fun c => (c.2, some (h.sourceInput s c.1)))) ++
  h.alsaChannelList.map fun ch => (h.is08AlsaOutputId ch, [(0, h.alsaInput s ch)])

/-- What the active map reports at a channel of an output. -/
def activeAt (h : CmHost) (s : SessionManager) (output : Text) (channel : ℕ) :
    Option (Option (Text × ℕ)) :=
  ((h.is08MapActiveJson s).lookup output).bind fun channels => channels.lookup channel

end CmHost

/-! ## The first pass -/

/-- `Is08WorkItem`. -/
structure Is08WorkItem where
  isSenderOutput : Bool
  /-- The id of a source, or an ALSA channel. -/
  outputId : UInt8
  outputChannel : ℤ
  clear : Bool
  inputIsSink : Bool := false
  /-- The id of a sink, or an ALSA channel. -/
  inputId : UInt8 := 0
  inputChannel : ℤ := 0
  inputUuid : Text := []
  deriving DecidableEq

/-- An output the first pass has found. -/
structure Is08Output where
  uuid : Text
  isSenderOutput : Bool
  outId : UInt8
  channelCount : ℕ

/-- The text of `name` in quotes, as it is. -/
def quoted (name : Text) : Text := '\'' :: name ++ ['\'']

namespace CmHost

/-- Look up an output and count its channels. -/
def resolveOutput (h : CmHost) (s : SessionManager) (uuid : Text) : Except Text Is08Output :=
  match h.findCmOutputSourceId s uuid with
  | some outId =>
    match s.getSource outId with
    | some src => .ok ⟨uuid, true, outId, src.map.length⟩
    | none => .error ("Unknown output ".toList ++ quoted uuid)
  | none =>
    match h.findAlsaOutputChannel uuid with
    | some outId => .ok ⟨uuid, false, outId, 1⟩
    | none => .error ("Unknown output ".toList ++ quoted uuid)

/-- Look up an input and check its channel: whether it is a sink, and its id. -/
def resolveInput (h : CmHost) (s : SessionManager) (out : Is08Output) (inputUuid : Text)
    (inputChannel : ℤ) : Except Text (Bool × UInt8) :=
  match h.findCmInputSinkId s inputUuid with
  | some inId =>
    match s.getSink inId with
    | some sink =>
      if inputChannel < 0 ∨ sink.map.length ≤ inputChannel.toNat then
        .error ("Channel index ".toList ++ Json.printInt inputChannel ++
          " out of range for input ".toList ++ quoted inputUuid)
      else .ok (true, inId)
    | none => .error ("Unknown input ".toList ++ quoted inputUuid)
  | none =>
    match h.findAlsaInputChannel inputUuid with
    | some inId =>
      if out.isSenderOutput then .ok (false, inId)
      else .error ("Input ".toList ++ quoted inputUuid ++ " is not routable to output ".toList ++
        quoted out.uuid)
    | none => .error ("Unknown input ".toList ++ quoted inputUuid)

/-- The channel of an output an entry is for. -/
def resolveChannel (out : Is08Output) (channelStr : Text) : Except Text ℤ :=
  match stoi channelStr with
  | none => .error ("Invalid channel index ".toList ++ quoted channelStr ++ " for output ".toList ++
      quoted out.uuid)
  | some outputChannel =>
    if outputChannel < 0 ∨ out.channelCount ≤ outputChannel.toNat then
      .error ("Channel index ".toList ++ channelStr ++ " out of range for output ".toList ++
        quoted out.uuid)
    else .ok outputChannel

/-- The `input` of an entry, unless it is missing, `null` or empty. -/
def entryInput (entry : Ptree) : Option Text :=
  (entry.child? "input".toList).map Ptree.data |>.filter fun uuid =>
    uuid != "null".toList && uuid != []

/-- The `channel_index` of an entry, zero if it is missing or no integer. -/
def entryChannel (entry : Ptree) : ℤ :=
  ((entry.child? "channel_index".toList).bind Ptree.getInt?).getD 0

/-- Resolve and check one channel of an output. -/
def resolveEntry (h : CmHost) (s : SessionManager) (out : Is08Output) (entry : Text × Ptree) :
    Except Text (Text × Is08WorkItem) := do
  let outputChannel ← resolveChannel out entry.1
  match entryInput entry.2 with
  | none =>
    pure (entry.1,
      { isSenderOutput := out.isSenderOutput
        outputId := out.outId
        outputChannel := outputChannel
        clear := true })
  | some inputUuid => do
    let inputChannel := entryChannel entry.2
    let (inputIsSink, inputId) ← h.resolveInput s out inputUuid inputChannel
    pure (entry.1,
      { isSenderOutput := out.isSenderOutput
        outputId := out.outId
        outputChannel := outputChannel
        clear := false
        inputIsSink := inputIsSink
        inputId := inputId
        inputChannel := inputChannel
        inputUuid := inputUuid })

/-- The channels of one output of an action. -/
abbrev Is08Group := Text × List (Text × Is08WorkItem)

instance : DecidableEq Is08Group := inferInstanceAs (DecidableEq (Text × List (Text × Is08WorkItem)))

/-- Resolve and check one output of an action. -/
def resolveGroup (h : CmHost) (s : SessionManager) (output : Text × Ptree) :
    Except Text Is08Group := do
  let out ← h.resolveOutput s output.1
  let items ← output.2.children.mapM (h.resolveEntry s out)
  pure (output.1, items)

/-- The first pass: every output of an action, in order. -/
def resolveAction (h : CmHost) (s : SessionManager) (action : Ptree) : Except Text (List Is08Group) :=
  action.children.mapM (h.resolveGroup s)

/-- `work`: the items of all outputs. -/
def work (groups : List Is08Group) : List Is08WorkItem :=
  groups.flatMap fun g => g.2.map Prod.snd

/-! ### The canonical text -/

/-- The text of one channel. -/
def channelFragment (channel : Text × Is08WorkItem) : Text :=
  let w := channel.2
  '"' :: channel.1 ++ "\": \x7b\"input\": ".toList ++
    (if w.clear then "null".toList else '"' :: w.inputUuid ++ ['"']) ++
    ", \"channel_index\": ".toList ++
    (if w.clear then "null".toList else Json.printInt w.inputChannel) ++ ['}']

/-- `out_fragment`. -/
def outFragment (items : List (Text × Is08WorkItem)) : Text :=
  ", ".toList.intercalate (items.map channelFragment)

/-- `canonical_by_output`: an output that occurs twice has the channels of its last
occurrence. -/
def canonicalByOutput (groups : List Is08Group) : SortedMap Text (List (Text × Is08WorkItem)) :=
  groups.foldl (fun m g => m.insert g.1 g.2) .empty

/-- The text of outputs with their channels, in order. -/
def groupsText (groups : List Is08Group) : Text :=
  '{' :: ", ".toList.intercalate (groups.map fun g =>
    '"' :: g.1 ++ "\": \x7b".toList ++ outFragment g.2 ++ ['}']) ++ ['}']

/-- `canonical_json`. -/
def canonicalJson (groups : List Is08Group) : Text := groupsText (canonicalByOutput groups).entries

end CmHost

/-! ## The second pass -/

/-- `map[i]`. -/
def channelAt? (map : List UInt8) (i : ℤ) : Option UInt8 :=
  if 0 ≤ i then map[i.toNat]? else none

/-- `map[i] = c`. -/
def setChannel? (map : List UInt8) (i : ℤ) (c : UInt8) : Option (List UInt8) :=
  if 0 ≤ i ∧ i.toNat < map.length then some (map.set i.toNat c) else none

namespace SessionManager

/-- What a round of the second pass asks of the session manager: to add a stream again
with one channel changed, or nothing. -/
def itemRequest (env : Env) (w : Is08WorkItem) (s : SessionManager) : Option (Option Request) :=
  if w.isSenderOutput then
    match s.getSource w.outputId with
    | none => some none
    | some src =>
      if w.clear then some none
      else if w.inputIsSink then
        match s.getSink w.inputId with
        | none => some none
        | some sink => do
          let c ← channelAt? sink.map w.inputChannel
          let map ← setChannel? src.map w.outputChannel c
          pure (some (.addSource env { src with map := map }))
      else do
        let map ← setChannel? src.map w.outputChannel w.inputId
        pure (some (.addSource env { src with map := map }))
  else if w.clear then some none
  else
    match s.getSink w.inputId with
    | none => some none
    | some sink => do
      let map ← setChannel? sink.map w.inputChannel w.outputId
      pure (some (.addSink env { sink with map := map }))

/-- One round of the second pass: how the request ended, if there was one, and the
state after it. -/
def applyItem (host : Host) (env : Env) (w : Is08WorkItem) (s : SessionManager) :
    Option (Option Ret × SessionManager) :=
  (s.itemRequest env w).bind fun request =>
    match request with
    | none => some (none, s)
    | some r => (s.serve host r).map fun served => (some served.1, served.2)

/-- The state after one round, with the answers of the outside world during it. -/
def applyStep (host : Host) (s : SessionManager) (w : Env × Is08WorkItem) : Option SessionManager :=
  (s.applyItem host w.1 w.2).map Prod.snd

end SessionManager

/-- The rounds of the second pass, each with the answers it gets. -/
def rounds (envs : ℕ → Env) (work : List Is08WorkItem) : List (Env × Is08WorkItem) :=
  work.zipIdx.map fun w => (envs w.2, w.1)

namespace CmHost

/-- `is08_apply_action_json`: the error text or the canonical text, and the state after it.
`envs` are the answers of the outside world, round by round. -/
def is08ApplyActionJson (h : CmHost) (readJson : Text → Option Ptree) (envs : ℕ → Env)
    (actionJson : Text) (dryRun : Bool) (s : SessionManager) :
    Option (Except Text Text × SessionManager) :=
  match readJson actionJson with
  | none => some (.error "Could not match the request to the schema".toList, s)
  | some action =>
    match h.resolveAction s action with
    | .error err => some (.error err, s)
    | .ok groups =>
      if dryRun then some (.ok (canonicalJson groups), s)
      else (run (SessionManager.applyStep h.host) s (rounds envs (work groups))).map fun s' =>
        (.ok (canonicalJson groups), s')

end CmHost
end Aes67Daemon
