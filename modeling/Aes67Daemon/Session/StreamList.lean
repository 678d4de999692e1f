import Aes67Daemon.Config.Reread
import Aes67Daemon.Lib.JsonArray

/-!
# Streams in documents

How `json.cpp` writes the sources and the sinks to the status file and reads them from it,
and how it reads one source or sink from a request.  A stream is written field by field;
a field has a key and a value of one of the types of the settings, or is a channel map.

## Main definitions

* `sourceToJson`, `sinkToJson`, `streamsToJson` — writing.
* `jsonToStreams`, `jsonToSource`, `jsonToSink` — reading.
* `jsonToStreams_streamsToJson` — what is written is read as it was.
-/
namespace Aes67Daemon

open Text Json

/-! ## Writing -/

/-- The value of a field. -/
inductive FieldValue
  | setting (t : SettingType) (v : t.Value)
  | map (m : List UInt8)

/-- What is written of a value. -/
def FieldValue.json : FieldValue → Text
  | setting t v => t.json v
  | map m => "[ ".toList ++ ", ".toList.intercalate (m.map fun n => ofNat n.toNat) ++ " ]".toList

/-- A field: its key and its value. -/
abbrev StreamField := String × FieldValue

namespace StreamField

def uint8 (key : String) (n : UInt8) : StreamField := (key, .setting .uint8 n)
def uint32 (key : String) (n : UInt32) : StreamField := (key, .setting .uint32 n)
def bool (key : String) (b : Bool) : StreamField := (key, .setting .bool b)
def text (key : String) (t : Text) : StreamField := (key, .setting .rawText t)
def map (key : String) (m : List UInt8) : StreamField := (key, .map m)

end StreamField

/-- The fields of a source in the order in which they are written. -/
def StreamSource.fields (s : StreamSource) : List StreamField :=
  [.uint8 "id" s.id, .bool "enabled" s.enabled, .text "name" s.name, .text "io" s.io,
    .uint32 "max_samples_per_packet" s.maxSamplesPerPacket, .text "codec" s.codec, .text "address" s.address,
    .text "address_sec" s.addressSec, .bool "use_secondary" s.useSecondary, .uint8 "ttl" s.ttl,
    .uint8 "payload_type" s.payloadType, .uint8 "dscp" s.dscp,
    .bool "refclk_ptp_traceable" s.refclkPtpTraceable, .map "map" s.map]

/-- The fields of a sink in the order in which they are written. -/
def StreamSink.fields (s : StreamSink) : List StreamField :=
  [.uint8 "id" s.id, .text "name" s.name, .text "io" s.io, .bool "use_sdp" s.useSdp, .text "source" s.source,
    .text "sdp" s.sdp, .uint32 "delay" s.delay, .bool "ignore_refclk_gmid" s.ignoreRefclkGmid, .map "map" s.map]

/-- A stream, field by field. -/
def streamToJson (fields : List StreamField) : Text :=
  "\n  \x7b\n    ".toList ++
    ",\n    ".toList.intercalate (fields.map fun f => memberText (f.1.toList, f.2.json)) ++ "\n  \x7d".toList

/-- `source_to_json`. -/
def sourceToJson (s : StreamSource) : Text := streamToJson s.fields

/-- `sink_to_json`. -/
def sinkToJson (s : StreamSink) : Text := streamToJson s.fields

/-- `streams_to_json`. -/
def streamsToJson (sources : List StreamSource) (sinks : List StreamSink) : Text :=
  "\x7b\n  \"sources\": [".toList ++ ", ".toList.intercalate (sources.map sourceToJson) ++
    "  ],\n  \"sinks\": [".toList ++ ", ".toList.intercalate (sinks.map sinkToJson) ++ "  ]\n\x7d\n".toList

/-! ## Reading -/

namespace Ptree

/-- `get` of a path of one key; `none` when it throws. -/
def get? {α : Type} (read : Ptree → Option α) (v : Ptree) (key : String) : Option α :=
  (v.child? key.toList).bind read

/-- `get` with a default value, which is also taken when the value cannot be read. -/
def getD {α : Type} (read : Ptree → Option α) (v : Ptree) (key : String) (default : α) : α :=
  (v.get? read key).getD default

def getText? (v : Ptree) : Option Text := some v.data

/-- A channel map, with `std::stoi` for each entry. -/
def getMap? (v : Ptree) : Option (List UInt8) := v.children.mapM fun c => (stoi c.2.data).map UInt8.ofInt

end Ptree

/-- What `parse_json_sources` reads of an element. -/
def parseJsonSource (v : Ptree) : Option StreamSource := do
  let id ← v.get? Ptree.getUInt8? "id"
  let enabled ← v.get? Ptree.getBool? "enabled"
  let name ← v.get? Ptree.getText? "name"
  let io ← v.get? Ptree.getText? "io"
  let maxSamplesPerPacket ← v.get? Ptree.getUInt32? "max_samples_per_packet"
  let codec ← v.get? Ptree.getText? "codec"
  let address ← v.get? Ptree.getText? "address"
  let addressSec := v.getD Ptree.getText? "address_sec" []
  let useSecondary := v.getD Ptree.getBool? "use_secondary" true
  let ttl ← v.get? Ptree.getUInt8? "ttl"
  let payloadType ← v.get? Ptree.getUInt8? "payload_type"
  let dscp ← v.get? Ptree.getUInt8? "dscp"
  let refclkPtpTraceable ← v.get? Ptree.getBool? "refclk_ptp_traceable"
  let map ← v.get? Ptree.getMap? "map"
  pure { id, enabled, name, io, maxSamplesPerPacket, codec, address, addressSec, useSecondary, ttl, payloadType, dscp,
         refclkPtpTraceable, map }

/-- What `parse_json_sinks` reads of an element. -/
def parseJsonSink (v : Ptree) : Option StreamSink := do
  let id ← v.get? Ptree.getUInt8? "id"
  let name ← v.get? Ptree.getText? "name"
  let io ← v.get? Ptree.getText? "io"
  let source ← v.get? Ptree.getText? "source"
  let useSdp ← v.get? Ptree.getBool? "use_sdp"
  let sdp ← v.get? Ptree.getText? "sdp"
  let delay ← v.get? Ptree.getUInt32? "delay"
  let ignoreRefclkGmid ← v.get? Ptree.getBool? "ignore_refclk_gmid"
  let map ← v.get? Ptree.getMap? "map"
  pure { id, name, io, source, useSdp, sdp, delay, ignoreRefclkGmid, map }

/-- `parse_json_sources`. -/
def parseJsonSources (pt : Ptree) : Option (List StreamSource) :=
  (pt.child? "sources".toList).bind fun v => v.children.mapM fun c => parseJsonSource c.2

/-- `parse_json_sinks`. -/
def parseJsonSinks (pt : Ptree) : Option (List StreamSink) :=
  (pt.child? "sinks".toList).bind fun v => v.children.mapM fun c => parseJsonSink c.2

/-- `json_to_streams`, with the reader of Boost; `none` when it throws. -/
def jsonToStreams (readJson : Text → Option Ptree) (js : Text) : Option (List StreamSource × List StreamSink) := do
  let pt ← readJson js
  let sources ← parseJsonSources pt
  let sinks ← parseJsonSinks pt
  pure (sources, sinks)

/-- A text of a request, without its undesired characters. -/
def Ptree.getDesired? (v : Ptree) : Option Text := some (removeUndesiredChars v.data).1

/-- `json_to_source`; `none` when it throws. -/
def jsonToSource (readJson : Text → Option Ptree) (id js : Text) : Option StreamSource := do
  let v ← readJson js
  let id ← stoi id
  let enabled ← v.get? Ptree.getBool? "enabled"
  let name ← v.get? Ptree.getDesired? "name"
  let io ← v.get? Ptree.getDesired? "io"
  let map ← v.get? Ptree.getMap? "map"
  let maxSamplesPerPacket ← v.get? Ptree.getUInt32? "max_samples_per_packet"
  let codec ← v.get? Ptree.getDesired? "codec"
  let address ← v.get? Ptree.getDesired? "address"
  let addressSec := v.getD Ptree.getDesired? "address_sec" []
  let useSecondary := v.getD Ptree.getBool? "use_secondary" true
  let ttl ← v.get? Ptree.getUInt8? "ttl"
  let payloadType ← v.get? Ptree.getUInt8? "payload_type"
  let dscp ← v.get? Ptree.getUInt8? "dscp"
  let refclkPtpTraceable ← v.get? Ptree.getBool? "refclk_ptp_traceable"
  pure { id := UInt8.ofInt id, enabled, name, io, maxSamplesPerPacket, codec, address, addressSec, useSecondary, ttl,
         payloadType, dscp, refclkPtpTraceable, map }

/-- `json_to_sink`; `none` when it throws. -/
def jsonToSink (readJson : Text → Option Ptree) (id js : Text) : Option StreamSink := do
  let v ← readJson js
  let id ← stoi id
  let name ← v.get? Ptree.getDesired? "name"
  let io ← v.get? Ptree.getDesired? "io"
  let source ← v.get? Ptree.getDesired? "source"
  let useSdp ← v.get? Ptree.getBool? "use_sdp"
  let sdp ← v.get? Ptree.getDesired? "sdp"
  let delay ← v.get? Ptree.getUInt32? "delay"
  let ignoreRefclkGmid ← v.get? Ptree.getBool? "ignore_refclk_gmid"
  let map ← v.get? Ptree.getMap? "map"
  pure { id := UInt8.ofInt id, name, io, source, useSdp, sdp, delay, ignoreRefclkGmid, map }

/-! ## What is written is read -/

namespace FieldValue

/-- What a written value is read as. -/
def tree : FieldValue → Ptree
  | setting t v => .leaf (t.data v)
  | map m => .node [] (m.map fun n => ([], .leaf (ofNat n.toNat)))

/-- **What is written of a value is read as it.** -/
theorem written : ∀ v : FieldValue, Written v.json v.tree
  | setting t v => by
    obtain ⟨hinert, hreads, hascii⟩ := t.json_reads v
    exact ⟨⟨hinert, hascii⟩, hreads⟩
  | map m => by
    have hone : ∀ c ∈ [' '], isWs c = true := by simp [isWs]
    have hentries : ∀ e ∈ m.map fun n => (ofNat n.toNat, Ptree.leaf (ofNat n.toNat)), Written e.1 e.2 := by
      intro e he
      obtain ⟨n, -, rfl⟩ := List.mem_map.mp he
      obtain ⟨hinert, hreads, hascii⟩ := SettingType.json_reads .uint8 n
      exact ⟨⟨hinert, hascii⟩, hreads⟩
    have harray := Written.array hone hone hone hentries
    simpa [json, tree, Function.comp_def] using harray

end FieldValue

/-- What the fields of a stream are read as. -/
def streamTree (fields : List StreamField) : Ptree := .node [] (fields.map fun f => (f.1.toList, f.2.tree))

/-- Keys that need no escape. -/
def plainKeys (keys : List String) : Bool :=
  keys.all fun key => key.toList.all fun c => plain c && decide (c.toNat < 0x80)

theorem plainKeys_source (s : StreamSource) : plainKeys (s.fields.map Prod.fst) = true := by
  show plainKeys (({} : StreamSource).fields.map Prod.fst) = true
  decide

theorem plainKeys_sink (s : StreamSink) : plainKeys (s.fields.map Prod.fst) = true := by
  show plainKeys (({} : StreamSink).fields.map Prod.fst) = true
  decide

/-- The text of a stream, with the white space set apart. -/
theorem streamToJson_eq (fields : List StreamField) :
    streamToJson fields = "\n  ".toList ++ ('{' :: "\n    ".toList ++
      (',' :: "\n    ".toList).intercalate (fields.map fun f => memberText (f.1.toList, f.2.json)) ++
      "\n  ".toList ++ ['}']) := by
  have hopen : "\n  \x7b\n    ".toList = "\n  ".toList ++ '{' :: "\n    ".toList := by decide
  have hsep : ",\n    ".toList = ',' :: "\n    ".toList := by decide
  have hclose : "\n  \x7d".toList = "\n  ".toList ++ ['}'] := by decide
  unfold streamToJson
  rw [hopen, hsep, hclose]
  generalize "\n  ".toList = v
  generalize "\n    ".toList = w
  simp only [List.append_assoc, List.cons_append]

/-- **What is written of a stream is read as its fields.** -/
theorem streamToJson_written {fields : List StreamField} (h : plainKeys (fields.map Prod.fst) = true) :
    Written (streamToJson fields) (streamTree fields) := by
  have hlead : ∀ c ∈ "\n    ".toList, isWs c = true := List.all_eq_true.mp (by decide)
  have hend : ∀ c ∈ "\n  ".toList, isWs c = true := List.all_eq_true.mp (by decide)
  have hmembers : ∀ m ∈ fields.map fun f => (f.1.toList, f.2.json, f.2.tree),
      (∀ c ∈ m.1, plain c = true ∧ c.toNat < 0x80) ∧ Written m.2.1 m.2.2 := by
    intro m hm
    obtain ⟨f, hf, rfl⟩ := List.mem_map.mp hm
    refine ⟨fun c hc => ?_, f.2.written⟩
    have hplain := List.all_eq_true.mp (List.all_eq_true.mp h f.1 (List.mem_map_of_mem hf)) c hc
    rwa [Bool.and_eq_true, decide_eq_true_eq] at hplain
  have hobject := (Written.object hlead hlead hend hmembers).skip hend
  rw [List.map_map, List.map_map] at hobject
  rw [streamToJson_eq]
  exact hobject

/-- The value of a field is read from the first field with its key. -/
theorem get?_streamTree {α : Type} (read : Ptree → Option α) (fields : List StreamField) (key : String) :
    (streamTree fields).get? read key = (fields.find? fun f => f.1 == key).bind fun f => read f.2.tree := by
  have hkey : (fun f : StreamField => f.1.toList == key.toList) = fun f => f.1 == key := by
    ext f
    rw [Bool.eq_iff_iff, beq_iff_eq, beq_iff_eq, String.toList_inj]
  rw [Ptree.get?, Ptree.child?, streamTree, Ptree.children_node, List.find?_map, Function.comp_def, hkey]
  cases fields.find? fun f => f.1 == key <;> rfl

namespace FieldValue

theorem getUInt8?_tree (n : UInt8) : (setting .uint8 n).tree.getUInt8? = some n := SettingType.read_data .uint8 n
theorem getUInt32?_tree (n : UInt32) : (setting .uint32 n).tree.getUInt32? = some n := SettingType.read_data .uint32 n
theorem getBool?_tree (b : Bool) : (setting .bool b).tree.getBool? = some b := SettingType.read_data .bool b

theorem getText?_tree (t : Text) : (setting .rawText t).tree.getText? = some (removeUndesiredChars t).1 := rfl

/-- A channel map is read entry by entry. -/
theorem getMap?_tree (m : List UInt8) : (map m).tree.getMap? = some m := by
  rw [Ptree.getMap?, tree, Ptree.children_node]
  induction m with
  | nil => rfl
  | cons n m ih =>
    have hlt : n.toNat < 256 := n.toNat_lt
    have hread : (stoi (ofNat n.toNat)).map UInt8.ofInt = some n := by
      rw [stoi_ofNat (by omega), Option.map_some, uint8_ofInt_toNat]
    rw [List.map_cons, List.mapM_cons, Ptree.data_leaf, hread, ih]
    rfl

end FieldValue

/-- A source whose texts have lost their undesired characters. -/
def StreamSource.desired (s : StreamSource) : StreamSource :=
  { s with
    name := removeUndesiredChars s.name
    io := removeUndesiredChars s.io
    codec := removeUndesiredChars s.codec
    address := removeUndesiredChars s.address
    addressSec := removeUndesiredChars s.addressSec }

/-- A sink whose texts have lost their undesired characters. -/
def StreamSink.desired (s : StreamSink) : StreamSink :=
  { s with
    name := removeUndesiredChars s.name
    io := removeUndesiredChars s.io
    source := removeUndesiredChars s.source
    sdp := removeUndesiredChars s.sdp }

/-- **A source is read from its fields.** -/
theorem parseJsonSource_fields (s : StreamSource) : parseJsonSource (streamTree s.fields) = some s.desired := by
  unfold parseJsonSource Ptree.getD
  simp only [get?_streamTree]
  simp [StreamSource.fields, StreamField.uint8, StreamField.uint32, StreamField.bool, StreamField.text,
    StreamField.map, FieldValue.getUInt8?_tree, FieldValue.getUInt32?_tree, FieldValue.getBool?_tree,
    FieldValue.getText?_tree, FieldValue.getMap?_tree, StreamSource.desired]

/-- **A sink is read from its fields.** -/
theorem parseJsonSink_fields (s : StreamSink) : parseJsonSink (streamTree s.fields) = some s.desired := by
  unfold parseJsonSink
  simp only [get?_streamTree]
  simp [StreamSink.fields, StreamField.uint8, StreamField.uint32, StreamField.bool, StreamField.text,
    StreamField.map, FieldValue.getUInt8?_tree, FieldValue.getUInt32?_tree, FieldValue.getBool?_tree,
    FieldValue.getText?_tree, FieldValue.getMap?_tree, StreamSink.desired]

/-! ## The body of a request -/


theorem FieldValue.getDesired?_tree (t : Text) :
    (setting .rawText t).tree.getDesired? = some (removeUndesiredChars t).1 :=
  congrArg (fun t : CleanText => some t.1) (removeUndesiredChars_clean (removeUndesiredChars t))

/-- **A body that `source_to_json` writes is taken**, with the id of the URL. -/
theorem jsonToSource_sourceToJson {readJson : Text → Option Ptree}
    (hreader : ∀ t tree, readRaw t = some tree → readJson t = some tree) {t : Text} {z : ℤ} (hstoi : stoi t = some z) (source : StreamSource) :
    jsonToSource readJson t (sourceToJson source) = some { source.desired with id := UInt8.ofInt z } := by
  have hread : Json.readRaw (sourceToJson source) = some (streamTree source.fields) := by
    have hread := (streamToJson_written (plainKeys_source source)).read (w := []) (by simp)
    rwa [List.append_nil] at hread
  rw [jsonToSource, hreader _ _ hread, Option.bind_eq_bind, Option.bind_some, hstoi]
  unfold Ptree.getD
  simp only [get?_streamTree]
  simp [StreamSource.fields, StreamField.uint8, StreamField.uint32, StreamField.bool, StreamField.text,
    StreamField.map, FieldValue.getUInt8?_tree, FieldValue.getUInt32?_tree, FieldValue.getBool?_tree,
    FieldValue.getDesired?_tree, FieldValue.getMap?_tree, StreamSource.desired]

/-- **A body that `sink_to_json` writes is taken**, with the id of the URL. -/
theorem jsonToSink_sinkToJson {readJson : Text → Option Ptree}
    (hreader : ∀ t tree, readRaw t = some tree → readJson t = some tree) {t : Text} {z : ℤ} (hstoi : stoi t = some z) (sink : StreamSink) :
    jsonToSink readJson t (sinkToJson sink) = some { sink.desired with id := UInt8.ofInt z } := by
  have hread : Json.readRaw (sinkToJson sink) = some (streamTree sink.fields) := by
    have hread := (streamToJson_written (plainKeys_sink sink)).read (w := []) (by simp)
    rwa [List.append_nil] at hread
  rw [jsonToSink, hreader _ _ hread, Option.bind_eq_bind, Option.bind_some, hstoi]
  simp only [get?_streamTree]
  simp [StreamSink.fields, StreamField.uint8, StreamField.uint32, StreamField.bool, StreamField.text,
    StreamField.map, FieldValue.getUInt32?_tree, FieldValue.getBool?_tree, FieldValue.getDesired?_tree,
    FieldValue.getMap?_tree, StreamSink.desired]

/-! ## The whole document -/

/-- The text of a document, with the parts set apart. -/
theorem streamsToJson_eq (sources : List StreamSource) (sinks : List StreamSink) :
    streamsToJson sources sinks = '{' :: "\n  ".toList ++ (',' :: "\n  ".toList).intercalate
      [memberText ("sources".toList, '[' :: [] ++ (',' :: [' ']).intercalate (sources.map sourceToJson) ++
          "  ".toList ++ [']']),
        memberText ("sinks".toList, '[' :: [] ++ (',' :: [' ']).intercalate (sinks.map sinkToJson) ++
          "  ".toList ++ [']'])] ++ ['\n'] ++ ['}'] ++ ['\n'] := by
  have hopen : "\x7b\n  \"sources\": [".toList =
      '{' :: "\n  ".toList ++ ('"' :: "sources".toList ++ "\": ".toList ++ ['[']) := by decide
  have hmid : "  ],\n  \"sinks\": [".toList = "  ".toList ++ [']'] ++ (',' :: "\n  ".toList) ++
      ('"' :: "sinks".toList ++ "\": ".toList ++ ['[']) := by decide
  have hclose : "  ]\n\x7d\n".toList = "  ".toList ++ [']', '\n', '}', '\n'] := by decide
  have hsep : ", ".toList = [',', ' '] := by decide
  unfold streamsToJson memberText
  rw [hopen, hmid, hclose, hsep, List.intercalate_cons_cons, List.intercalate_singleton]
  generalize "sources".toList = v1
  generalize "sinks".toList = v2
  generalize "\": ".toList = v3
  generalize "\n  ".toList = v4
  generalize "  ".toList = v5
  simp only [List.append_assoc, List.cons_append, List.nil_append]

/-- A list of streams in a document. -/
theorem streams_written {α : Type} {toJson : α → Text} {toFields : α → List StreamField}
    (h : ∀ s, Written (toJson s) (streamTree (toFields s))) (streams : List α) :
    Written ('[' :: [] ++ (',' :: [' ']).intercalate (streams.map toJson) ++ "  ".toList ++ [']'])
      (.node [] (streams.map fun s => ([], streamTree (toFields s)))) := by
  have hone : ∀ c ∈ [' '], isWs c = true := by simp [isWs]
  have hend : ∀ c ∈ "  ".toList, isWs c = true := List.all_eq_true.mp (by decide)
  have helements : ∀ e ∈ streams.map fun s => (toJson s, streamTree (toFields s)), Written e.1 e.2 := by
    intro e he
    obtain ⟨s, -, rfl⟩ := List.mem_map.mp he
    exact h s
  have hnone : ∀ c ∈ ([] : Text), isWs c = true := by simp
  have harray := Written.array hnone hone hend helements
  rwa [List.map_map, List.map_map] at harray

/-- **The document is read as the fields of its streams.** -/
theorem readRaw_streamsToJson (sources : List StreamSource) (sinks : List StreamSink) :
    readRaw (streamsToJson sources sinks) = some (.node []
      [("sources".toList, .node [] (sources.map fun s => ([], streamTree s.fields))),
        ("sinks".toList, .node [] (sinks.map fun s => ([], streamTree s.fields)))]) := by
  have hlead : ∀ c ∈ "\n  ".toList, isWs c = true := List.all_eq_true.mp (by decide)
  have hend : ∀ c ∈ ['\n'], isWs c = true := by simp [isWs]
  have hsources := streams_written (fun s => streamToJson_written (plainKeys_source s)) sources
  have hsinks := streams_written (fun s => streamToJson_written (plainKeys_sink s)) sinks
  have hkeys : ∀ key ∈ ["sources", "sinks"], ∀ c ∈ key.toList, plain c = true ∧ c.toNat < 0x80 := by
    have hall : plainKeys ["sources", "sinks"] = true := by decide
    intro key hkey c hc
    have hplain := List.all_eq_true.mp (List.all_eq_true.mp hall key hkey) c hc
    rwa [Bool.and_eq_true, decide_eq_true_eq] at hplain
  have hobject := @Written.object _ _ _ hlead hlead hend [("sources".toList, _, _), ("sinks".toList, _, _)] (by
    intro m hm
    rcases List.mem_pair.mp hm with rfl | rfl
    · exact ⟨hkeys _ (by simp), hsources⟩
    · exact ⟨hkeys _ (by simp), hsinks⟩)
  rw [streamsToJson_eq]
  exact hobject.read hend

/-- The elements of a list are read one by one. -/
theorem mapM_streams {α β : Type} {toFields : α → List StreamField} {parse : Ptree → Option β} {read : α → β}
    (h : ∀ s, parse (streamTree (toFields s)) = some (read s)) (streams : List α) :
    (streams.map fun s => (([] : Text), streamTree (toFields s))).mapM (fun c => parse c.2) =
      some (streams.map read) := by
  induction streams with
  | nil => rfl
  | cons s streams ih =>
    rw [List.map_cons, List.mapM_cons, h, ih]
    rfl

/-- **Streams that are written are read as they were**, less the undesired characters of their texts. -/
theorem jsonToStreams_desired {readJson : Text → Option Ptree}
    (hreader : ∀ t tree, readRaw t = some tree → readJson t = some tree) (sources : List StreamSource) (sinks : List StreamSink) :
    jsonToStreams readJson (streamsToJson sources sinks) =
      some (sources.map StreamSource.desired, sinks.map StreamSink.desired) := by
  have hsources : ∀ v w, parseJsonSources (.node [] [("sources".toList, v), ("sinks".toList, w)]) =
      v.children.mapM fun c => parseJsonSource c.2 := fun _ _ => rfl
  have hsinks : ∀ v w, parseJsonSinks (.node [] [("sources".toList, v), ("sinks".toList, w)]) =
      w.children.mapM fun c => parseJsonSink c.2 := fun _ _ => rfl
  rw [jsonToStreams, hreader _ _ (readRaw_streamsToJson sources sinks), Option.bind_eq_bind, Option.bind_some, hsources, Ptree.children_node,
    mapM_streams parseJsonSource_fields, Option.bind_eq_bind, Option.bind_some, hsinks, Ptree.children_node,
    mapM_streams parseJsonSink_fields]
  rfl

/-! ## Texts of desired characters -/

/-- The texts of a source have no undesired characters. -/
structure StreamSource.Desired (s : StreamSource) : Prop where
  name : s.name.all isDesired = true
  io : s.io.all isDesired = true
  codec : s.codec.all isDesired = true
  address : s.address.all isDesired = true
  addressSec : s.addressSec.all isDesired = true

/-- The texts of a sink have no undesired characters. -/
structure StreamSink.Desired (s : StreamSink) : Prop where
  name : s.name.all isDesired = true
  io : s.io.all isDesired = true
  source : s.source.all isDesired = true
  sdp : s.sdp.all isDesired = true

theorem StreamSource.Desired.desired_eq {s : StreamSource} (h : s.Desired) : s.desired = s := by
  rw [desired, removeUndesiredChars_clean ⟨s.name, h.name⟩, removeUndesiredChars_clean ⟨s.io, h.io⟩,
    removeUndesiredChars_clean ⟨s.codec, h.codec⟩, removeUndesiredChars_clean ⟨s.address, h.address⟩,
    removeUndesiredChars_clean ⟨s.addressSec, h.addressSec⟩]

theorem StreamSink.Desired.desired_eq {s : StreamSink} (h : s.Desired) : s.desired = s := by
  rw [desired, removeUndesiredChars_clean ⟨s.name, h.name⟩, removeUndesiredChars_clean ⟨s.io, h.io⟩,
    removeUndesiredChars_clean ⟨s.source, h.source⟩, removeUndesiredChars_clean ⟨s.sdp, h.sdp⟩]

/-- **Lists of streams whose texts have no undesired characters are read as they were written.** -/
theorem jsonToStreams_streamsToJson {readJson : Text → Option Ptree}
    (hreader : ∀ t tree, readRaw t = some tree → readJson t = some tree) (sources : List StreamSource) (sinks : List StreamSink)
    (hsources : ∀ s ∈ sources, s.Desired) (hsinks : ∀ s ∈ sinks, s.Desired) :
    jsonToStreams readJson (streamsToJson sources sinks) = some (sources, sinks) := by
  rw [jsonToStreams_desired hreader, List.map_congr_left fun s hs => (hsources s hs).desired_eq,
    List.map_congr_left fun s hs => (hsinks s hs).desired_eq, List.map_id', List.map_id']

/-- A source and a sink whose names have line breaks and tabs. -/
theorem jsonToStreams_streamsToJson_lines :
    jsonToStreams readRaw (streamsToJson [{ id := 255, name := "a\r\n\tb".toList, map := [0, 255] }]
      [{ sdp := "v=0\r\n".toList, delay := 4294967295 }]) =
        some ([{ id := 255, name := "a\r\n\tb".toList, map := [0, 255] }],
          [{ sdp := "v=0\r\n".toList, delay := 4294967295 }]) :=
  jsonToStreams_streamsToJson (fun _ _ h => h) _ _ (by
    intro s hs
    obtain rfl := List.mem_singleton.mp hs
    constructor <;> decide) (by
    intro s hs
    obtain rfl := List.mem_singleton.mp hs
    constructor <;> decide)

end Aes67Daemon
