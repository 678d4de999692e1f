import Aes67Daemon.Session.LastWrites
import Aes67Daemon.Session.RoundTrip
import Aes67Daemon.Session.StreamList

/-!
# The name of a source in its description

`get_source_sdp_` pastes the node id and the name of a source into a line of the description, and
the filter of the REST API lets line feeds pass in both.  Up to the first line feed the text makes
no difference to who reads the description; what follows it starts lines of their own.

## Main definitions

* `addedLines` — the lines that a node id and a name add.
* `linesAfterName` — what comes after them.
* `nameFree_iff` — when two names make no difference.
-/
namespace Aes67Daemon

open Text SdpParser

/-! ## The lines around the name -/

variable {host : Host} {ptp : Ptp}

/-- What stands behind `s=` for a source with a name. -/
def subjectText (host : Host) (name : Text) : Text := host.config.nodeId ++ ' ' :: cStr host.nameSize name

/-- The lines that the node id and a name add behind the `s=` line. -/
def addedLines (host : Host) (name : Text) : List Text := ((subjectText host name).splitOn '\n').tail

/-- The lines after those of the name. -/
def linesAfterName (host : Host) (env : Env) (ptp : Ptp) (rate : UInt32) (info : StreamInfo) : List Text :=
  let second := describedSecondary host env info
  let ptime := ptimeText host.double info.stream.leg0.ui32MaxSamplesPerPacket rate
  "t=0 0".toList :: ((if second.isSome then ["a=group:DUP 1 2".toList] else []) ++
    (mediaLines ptp rate ptime info info.stream.leg0 (Address.toText host.config.ipAddr) ++
      "a=recvonly".toList :: secondLines ptp rate ptime info second))

theorem getSourceSdp_name (env : Env) (rate : UInt32) (info : StreamInfo) :
    getSourceSdp host env ptp rate info = unlines (versionLines info ++
      nameLine host info.stream.leg0.cName :: linesAfterName host env ptp rate info) := by
  rw [getSourceSdp_eq]
  rfl

/-- A text that is followed by another one on a line of its own. -/
theorem getLines_append_newline (t rest : Text) : getLines (t ++ '\n' :: rest) = t.splitOn '\n' ++ getLines rest := by
  induction t using line_induction with
  | last t ht => rw [getLines_line_append ht, List.splitOn_eq_singleton ht, List.singleton_append]
  | line l t hl ih =>
      rw [List.append_assoc, List.cons_append, getLines_line_append hl, ih, List.splitOn_append_cons_self_of_not_mem hl,
        List.cons_append]

/-- The first line behind `s=`, and those after it. -/
theorem splitOn_subject (t : Text) : ∃ l, ('s' :: '=' :: t).splitOn '\n' = ('s' :: '=' :: l) :: (t.splitOn '\n').tail := by
  by_cases hmem : '\n' ∈ t
  · obtain ⟨l, t', rfl, hl⟩ := List.eq_append_cons_of_mem hmem
    have hl' : '\n' ∉ 's' :: '=' :: l := by simpa using hl
    refine ⟨l, ?_⟩
    rw [← List.cons_append, ← List.cons_append, List.splitOn_append_cons_self_of_not_mem hl',
      List.splitOn_append_cons_self_of_not_mem hl, List.tail_cons]
  · have hmem' : '\n' ∉ 's' :: '=' :: t := by simpa using hmem
    refine ⟨t, ?_⟩
    rw [List.splitOn_eq_singleton hmem', List.splitOn_eq_singleton hmem, List.tail_cons]

/-- An `s=` line is not read. -/
theorem line_subject (p : SdpParser) (t : Text) : p.line host ptp ('s' :: '=' :: t) = .ok p := by
  obtain ⟨u, hu⟩ := trim_cons_cons (c := 's') (d := '=') (t := t) (by decide) (by decide)
  simp only [line, hu]
  rfl

/-- **What is read of a description** are the lines that the node id and the name add, and the rest. -/
theorem parseSdp_added (env : Env) (rate : UInt32) {info : StreamInfo} {name : Text}
    (hname : info.stream.leg0.cName = cStr host.nameSize name) (base : StreamInfo) (ptp' : Ptp) :
    (parseSdp host ptp' (getSourceSdp host env ptp rate info) base).toOption =
      ((afterVersion base info).lines host ptp' (addedLines host name ++
        getLines (unlines (linesAfterName host env ptp rate info)))).toOption.map finish := by
  have hmid : (afterVersion base info).mid < mediaMax := show (-1 : ℤ) < mediaMax by decide
  have hsubject : nameLine host info.stream.leg0.cName = 's' :: '=' :: subjectText host name := by
    rw [hname, nameLine, subjectText, List.append_assoc]
    rfl
  obtain ⟨l, hl⟩ := splitOn_subject (subjectText host name)
  have hlines : getLines (getSourceSdp host env ptp rate info) = versionLines info ++ ('s' :: '=' :: l) ::
      (addedLines host name ++ getLines (unlines (linesAfterName host env ptp rate info))) := by
    have hversion := newline_versionLines info
    rw [getSourceSdp_name]
    unfold versionLines at hversion ⊢
    simp only [List.cons_append, List.nil_append, unlines_cons]
    rw [getLines_line_append (hversion _ List.mem_cons_self),
      getLines_line_append (hversion _ (List.mem_cons_of_mem _ List.mem_cons_self)), getLines_append_newline, hsubject, hl]
    rfl
  unfold parseSdp
  rw [hlines, lines_versionLines, lines_cons hmid (line_subject _ _)]
  cases (afterVersion base info).lines host ptp' _ <;> rfl

/-! ## Sources that differ in their names -/

/-- A record without the names and the handles. -/
def StreamInfo.unnamed (info : StreamInfo) : StreamInfo :=
  { info with
    stream := ⟨{ info.stream.leg0 with cName := [] }, { info.stream.leg1 with cName := [] }⟩
    handle := ⟨0, 0⟩ }

theorem linesAfterName_unnamed (env : Env) (rate : UInt32) (info : StreamInfo) :
    linesAfterName host env ptp rate info.unnamed = linesAfterName host env ptp rate info := by
  have hsecond : describedSecondary host env info.unnamed = describedSecondary host env info := rfl
  unfold linesAfterName
  rw [hsecond]
  cases describedSecondary host env info with
  | none => rfl
  | some ip => rfl

namespace SessionManager
variable {env : Env} {m m' : SessionManager} {source : StreamSource} {name : Text}

theorem sourceStream_name (source : StreamSource) (name : Text) (rate : UInt32) :
    sourceStream host env { source with name := name } rate =
      (sourceStream host env source rate).map fun s => { s with cName := cStr host.nameSize name } := by
  have hdest : sourceDestIP host { source with name := name } = sourceDestIP host source := rfl
  unfold sourceStream
  rw [hdest]
  dsimp only
  split
  · rfl
  · rw [Option.map_map]
    rfl

/-- A prepared source as it is stored, but for the handles. -/
def registeredSource (host : Host) (env : Env) (source : StreamSource) (prep : StreamInfo) : StreamInfo :=
  if prep.enabled then
    match (Request.addSource env source).secondLeg host prep with
    | none => prep.single 0
    | some leg1 => prep.dual leg1 0 0
  else prep

theorem unnamed_of_stored {prep info : StreamInfo} (h : Stored host (.addSource env source) prep info) :
    info.unnamed = (registeredSource host env source prep).unnamed := by
  unfold registeredSource
  cases h with
  | placed hlive =>
      have hoff : prep.enabled = false := hlive
      rw [hoff]
      rfl
  | single h0 hlive hleg1 =>
      have hon : prep.enabled = true := hlive
      rw [hon, hleg1]
      rfl
  | dual leg1 h0 h1 hlive hleg1 =>
      have hon : prep.enabled = true := hlive
      rw [hon, hleg1]
      rfl

/-- The name of a source is only stored in the legs. -/
theorem registeredSource_name (source : StreamSource) (name : Text) (stream : TRTPStreamInfo) (v : UInt32) :
    (registeredSource host env { source with name := name }
      (sourceInfo host { source with name := name } { stream with cName := cStr host.nameSize name } v)).unnamed =
      (registeredSource host env source (sourceInfo host source stream v)).unnamed := by
  obtain ⟨id, enabled, name₀, io, n, codec, address, addressSec, useSecondary, ttl, payload, dscp, traceable, map⟩ := source
  unfold registeredSource Request.secondLeg
  cases enabled with
  | false => rfl
  | true =>
      cases useSecondary with
      | false => rfl
      | true =>
          dsimp only
          cases env.secondaryIp host with
          | none => rfl
          | some ip => rfl

/-- What is stored for a source with a name. -/
theorem addSource_name (h : m.addSource host env { source with name := name } = some (.ok, m')) :
    ∃ stream info, sourceStream host env source m.driver.sampleRate = some stream ∧
      m'.sources.find? source.id = some info ∧ info.stream.leg0.cName = cStr host.nameSize name ∧
      info.unnamed = (registeredSource host env source (sourceInfo host source stream m.gSessionVersion)).unnamed := by
  obtain ⟨prep, info, hprep, hstored, htable⟩ := find?_of_serve_ok (addSource_books h) rfl
  rcases prepared_cases hprep with ⟨env', source', stream', hr, -, hstream, rfl⟩ | ⟨env', sink, hr, -⟩
  · cases hr
    have hname := (storedSource_of_stored hstream hstored).name
    rw [sourceStream_name] at hstream
    obtain ⟨stream, hplain, rfl⟩ := Option.map_eq_some_iff.mp hstream
    refine ⟨stream, info, hplain, (htable .source source.id).trans (if_pos ⟨rfl, rfl⟩), hname, ?_⟩
    exact (unnamed_of_stored hstored).trans (registeredSource_name source name stream m.gSessionVersion)
  · cases hr

end SessionManager

open SessionManager

/-! ## When names make no difference -/

/-- A source is taken from a request and added, and then described. -/
structure Described (host : Host) (env env' : Env) (m : SessionManager) (source : StreamSource) (sdp : Text) : Prop where
  taken : ∃ id body, jsonToSource host.readJson id body = some source
  added : ∃ m', m.addSource host env source = some (.ok, m') ∧
    m'.getSourceSdpOf host env' source.id.toUInt32 = some sdp

/-- The record of a source without its name, as it is stored when the source is added. -/
def recordOf (host : Host) (env : Env) (m : SessionManager) (source : StreamSource) : Option StreamInfo :=
  (sourceStream host env source m.driver.sampleRate).map fun stream =>
    (registeredSource host env source (sourceInfo host source stream m.gSessionVersion)).unnamed

/-- What is described is what was stored. -/
theorem Described.stored {env env' : Env} {m : SessionManager} {source : StreamSource} {name sdp : Text}
    (h : Described host env env' m { source with name := name } sdp) :
    ∃ info, info.stream.leg0.cName = cStr host.nameSize name ∧ recordOf host env m source = some info.unnamed ∧
      sdp = getSourceSdp host env' m.ptp m.driver.sampleRate info := by
  obtain ⟨m', hadd, hsdp⟩ := h.added
  obtain ⟨stream, info, hstream, hfind, hname, hunnamed⟩ := addSource_name hadd
  obtain ⟨hout, -⟩ := serve_outside (r := .addSource env { source with name := name }) hadd
  have hptp : m'.ptp = m.ptp := congrArg Outside.ptp hout
  have hrate : m'.driver.sampleRate = m.driver.sampleRate := congrArg Outside.sampleRate hout
  refine ⟨info, hname, ?_, ?_⟩
  · rw [recordOf, hstream, hunnamed]
    rfl
  · unfold getSourceSdpOf at hsdp
    rw [show source.id.toUInt32.toUInt8 = source.id by simp, hfind, Option.map_some, hptp, hrate] at hsdp
    exact (Option.some.inj hsdp).symm

/-- What is read of the description of a source with a name. -/
theorem Described.read {env env' : Env} {m : SessionManager} {source : StreamSource} {name sdp : Text} {info : StreamInfo}
    (h : Described host env env' m { source with name := name } sdp) (hinfo : recordOf host env m source = some info)
    (base : StreamInfo) (ptp : Ptp) : (parseSdp host ptp sdp base).toOption =
      ((afterVersion base info).lines host ptp (addedLines host name ++
        getLines (unlines (linesAfterName host env' m.ptp m.driver.sampleRate info)))).toOption.map finish := by
  obtain ⟨info', hname, hstored, rfl⟩ := h.stored
  obtain rfl := Option.some.inj (hstored.symm.trans hinfo)
  rw [parseSdp_added env' m.driver.sampleRate hname, linesAfterName_unnamed]
  rfl

end Aes67Daemon
