import Aes67Daemon.Session.Data

/-!
# Session descriptions

The two directions of `session_manager.cpp`: `getSourceSdp` prints the SDP of a
source and `parseSdp` reads an SDP into a `StreamInfo`.  The parser is the
source's: a loop over trimmed lines with a status, an index of the current audio
section that starts at `-1`, and a flag for the `DUP` group.  Reading the second
character of an empty line is outside the line; the parser then returns false
whichever byte is there, because the substring that follows throws, but the model
keeps the two failures apart.

## Main definitions

* `SdpParser.line` — the body of the loop.
* `parseSdp` — `SessionManager::parse_sdp`.
* `ptimeText` — the packet time, to twelve digits, without trailing zeros or dots.
* `getSourceSdp` — `SessionManager::get_source_sdp_`.
-/
namespace Aes67Daemon

open Text

/-- `get_codec_word_length`; zero for an unknown codec. -/
def getCodecWordLength (codec : Text) : UInt8 :=
  if codec = "L16".toList then 2
  else if codec = "L24".toList then 3
  else if codec = "L2432".toList ∨ codec = "AM824".toList then 4
  else if codec = "DSD64".toList then 1
  else if codec = "DSD128".toList then 2
  else if codec = "DSD64_32".toList ∨ codec = "DSD128_32".toList ∨ codec = "DSD256".toList then 4
  else 0

/-! ## Parsing -/

/-- Why `parse_sdp` does not accept: it returns false, or it looks outside the
line or the array first. -/
inductive ParseFailure
  | rejected
  | outOfBounds
  deriving DecidableEq

/-- The result of a parsing step. -/
abbrev Parsed (α : Type) := Except ParseFailure α

/-- A conversion that may throw; the handler returns false. -/
def orReject {α : Type} : Option α → Parsed α
  | some a => .ok a
  | none => .error .rejected

/-- An array access. -/
def orOutOfBounds {α : Type} : Option α → Parsed α
  | some a => .ok a
  | none => .error .outOfBounds

/-- `sdp_parser_status`. -/
inductive SdpStatus
  | init
  | time
  | media
  deriving DecidableEq

/-- The variables of the parsing loop. -/
structure SdpParser where
  info : StreamInfo
  status : SdpStatus := .init
  mid : ℤ := -1
  dup : Bool := false
  deriving DecidableEq

namespace SdpParser

/-- `media_max`. -/
def mediaMax : ℤ := 2

/-- Write to `info.stream[mid]`. -/
def modifyStream (p : SdpParser) (f : TRTPStreamInfo → TRTPStreamInfo) : Parsed SdpParser := do
  let stream ← orOutOfBounds (p.info.stream.modify? p.mid f)
  pure { p with info.stream := stream }

/-- The `o=` line.  Too few fields are only logged. -/
def originLine (p : SdpParser) (val : Text) : Parsed SdpParser :=
  match splitBy (· = ' ') val with
  | f0 :: f1 :: f2 :: f3 :: f4 :: f5 :: _ => do
      let version ← orReject (stoul f2)
      pure { p with info.origin :=
        { username := f0, sessionId := f1, sessionVersion := UInt64.ofNat version,
          networkType := f3, addressType := f4, unicastAddress := f5 } }
  | _ => pure p

/-- `a=rtpmap`. -/
def rtpmap (host : Host) (p : SdpParser) (value : Text) : Parsed SdpParser :=
  match splitBy (fun c => c = ' ' || c = '/') value with
  | f0 :: f1 :: f2 :: f3 :: _ => do
      let stream ← orOutOfBounds (p.info.stream.at? p.mid)
      let payload ← orReject (stoi f0)
      if (stream.byPayloadType.toNat : ℤ) = payload then
        let rate ← orReject (stoul f2)
        -- the channel count only has to be a number
        let _ ← orReject (stoi f3)
        p.modifyStream fun s => { s with
          cCodec := cStr host.codecSize f1
          byWordLength := getCodecWordLength f1
          ui32SamplingRate := UInt32.ofNat rate }
      else pure p
  | _ => .error .rejected

/-- The samples of a packet time in milliseconds: a product and a quotient of doubles, and then the
conversion to `uint32_t`, the low word of the 64-bit truncation as x86-64 code does it when the
value does not fit. -/
def packetSamples (double : ℚ → ℚ) (rate : UInt32) : Real64 → UInt32
  | .finite neg time =>
    let q := ⌊double (double (rate.toNat * time) / 1000)⌋.toNat
    if q < 2 ^ 63 then (if neg then -UInt32.ofNat q else UInt32.ofNat q) else 0
  | .inf | .nan => 0

/-- `a=ptime`: samples per packet from the sampling rate read so far. -/
def ptime (host : Host) (p : SdpParser) (value : Text) : Parsed SdpParser := do
  let stream ← orOutOfBounds (p.info.stream.at? p.mid)
  let time ← orReject (stod host.double value)
  p.modifyStream fun s => { s with
    ui32MaxSamplesPerPacket := packetSamples host.double stream.ui32SamplingRate time }

/-- Set the RTP timestamp offset. -/
def timestampOffset (p : SdpParser) (value : Text) : Parsed SdpParser := do
  let offset ← orReject (stoul value)
  p.modifyStream fun s => { s with ui32RTPTimestampOffset := UInt32.ofNat offset }

/-- `a=mediaclk`. -/
def mediaclk (p : SdpParser) (value : Text) : Parsed SdpParser :=
  match splitBy (· = '=') value with
  | [f0, f1] => if f0 = "direct".toList then p.timestampOffset f1 else pure p
  | _ => pure p

/-- `a=ts-refclk`: a reference with a grandmaster id and a domain must name the
configured ones. -/
def tsRefclk (ptp : Ptp) (p : SdpParser) (value : Text) : Parsed SdpParser :=
  match splitBy (· = ':') value with
  | [_, f1, f2] =>
    if f1 ≠ ptp.status.gmid then .error .rejected
    else do
      let domain ← orReject (stoi f2)
      if domain ≠ ptp.config.domain.toNat then .error .rejected else pure p
  | _ => pure p

/-- An attribute before the first audio section. -/
def sessionAttribute (p : SdpParser) (name value : Text) : Parsed SdpParser :=
  if name = "group".toList then
    pure (if value.take 3 = "DUP".toList then { p with dup := true } else p)
  else if name = "clock-domain".toList then
    if value.take 5 ≠ "PTPv2".toList then .error .rejected else pure p
  else pure p

/-- An attribute of an audio section. -/
def mediaAttribute (host : Host) (ptp : Ptp) (p : SdpParser) (name value : Text) :
    Parsed SdpParser :=
  if name = "rtpmap".toList then p.rtpmap host value
  else if name = "sync-time".toList then p.timestampOffset value
  else if name = "framecount".toList then pure p
  else if name = "ptime".toList then p.ptime host value
  else if name = "mediaclk".toList then p.mediaclk value
  else if name = "ts-refclk".toList ∧ p.info.ignoreRefclkGmid = false then p.tsRefclk ptp value
  else pure p

/-- The `a=` line.  An attribute without a value is skipped. -/
def attributeLine (host : Host) (ptp : Ptp) (p : SdpParser) (val : Text) : Parsed SdpParser :=
  match breakAt ':' val with
  | none => pure p
  | some (name, value) =>
    match p.status with
    | .init | .time => p.sessionAttribute name value
    | .media => p.mediaAttribute host ptp name value

/-- The port and the payload type of the current audio section, unless two
sections are described already. -/
def openSection (p : SdpParser) (f1 f3 : Text) : Parsed SdpParser :=
  if p.mid < mediaMax then do
    let port ← orReject (stoi f1)
    let payload ← orReject (stoi f3)
    let p ← p.modifyStream fun s => { s with
      usDestPort := UInt16.ofInt port, byPayloadType := UInt8.ofInt payload }
    pure { p with status := .media }
  else pure p

/-- The `m=` line.  Only audio opens a section. -/
def mediaLine (p : SdpParser) (val : Text) : Parsed SdpParser :=
  match splitBy (· = ' ') val with
  | f0 :: f1 :: _ :: f3 :: _ =>
    if f0 = "audio".toList then { p with mid := p.mid + 1 }.openSection f1 f3 else pure p
  | _ => .error .rejected

/-- The TTL after the address of a `c=` line. -/
def connectionTtl : List Text → Parsed ℤ
  | f3 :: _ => orReject (stoi f3)
  | [] => pure 64

/-- Store connection data, in the first part of the session for both sections,
else for the current one. -/
def setConnection (p : SdpParser) (destIP : UInt32) (ttl : ℤ) : Parsed SdpParser :=
  let set := fun (s : TRTPStreamInfo) => { s with ui32DestIP := destIP, byTTL := UInt8.ofInt ttl }
  if p.status = .init then
    pure { p with info.stream := ⟨set p.info.stream.leg0, set p.info.stream.leg1⟩ }
  else p.modifyStream set

/-- The `c=` line.  Between the `t=` line and the first audio section it is
ignored. -/
def connectionLine (p : SdpParser) (val : Text) : Parsed SdpParser :=
  if p.status = .time then pure p
  else
    match splitBy (fun c => c = ' ' || c = '/') val with
    | f0 :: f1 :: f2 :: fs =>
      if f0 ≠ "IN".toList ∨ f1 ≠ "IP4".toList then .error .rejected
      else do
        let destIP ← orReject (Address.ofText f2)
        if destIP = Address.inaddrNone then .error .rejected
        else do
          let ttl ← connectionTtl fs
          p.setConnection destIP ttl
    | _ => .error .rejected

/-- The body of the loop: one line. -/
def line (host : Host) (ptp : Ptp) (p : SdpParser) (raw : Text) : Parsed SdpParser :=
  match trim raw with
  | [] => .error .outOfBounds
  | [_] => .error .rejected
  | c :: d :: val =>
    if d ≠ '=' then .error .rejected
    else if c = 'v' then if val ≠ "0".toList then .error .rejected else pure p
    else if c = 'o' then p.originLine val
    else if c = 't' then pure { p with status := .time }
    else if c = 'a' then p.attributeLine host ptp val
    else if c = 'm' then p.mediaLine val
    else if c = 'c' then p.connectionLine val
    else if c < 'a' ∨ 'z' < c then .error .rejected
    else pure p

/-- The loop. -/
def lines (host : Host) (ptp : Ptp) : SdpParser → List Text → Parsed SdpParser
  | p, [] => pure p
  | p, l :: ls =>
    if p.mid < mediaMax then do
      let p ← p.line host ptp l
      p.lines host ptp ls
    else pure p

/-- After the loop: two audio sections in a `DUP` group are the two legs of a
redundant stream. -/
def finish (p : SdpParser) : StreamInfo :=
  if p.dup ∧ 0 < p.mid then { p.info with st20227Enabled := true } else p.info

end SdpParser

/-- `SessionManager::parse_sdp`. -/
def parseSdp (host : Host) (ptp : Ptp) (sdp : Text) (info : StreamInfo) : Parsed StreamInfo := do
  let p ← SdpParser.lines host ptp { info := info } (getLines sdp)
  pure p.finish

/-! ## Printing -/

/-- A number with twelve decimals, from its multiple of `10 ^ 12`. -/
def fixed12 (n : ℕ) : Text :=
  let frac := ofNat (n % 10 ^ 12)
  ofNat (n / 10 ^ 12) ++ '.' :: (List.replicate (12 - frac.length) '0' ++ frac)

/-- `s.erase(s.find_last_not_of("0.") + 1)`. -/
def stripZerosAndDots (t : Text) : Text := (t.reverse.dropWhile fun c => c = '0' || c = '.').reverse

/-- The packet time in milliseconds, a quotient of doubles, to twelve decimals.  A rate of zero
divides by zero. -/
def ptimeText (double : ℚ → ℚ) (maxSamplesPerPacket sampleRate : UInt32) : Text :=
  if sampleRate = 0 then
    if maxSamplesPerPacket = 0 then "-nan".toList else "inf".toList
  else
    let time := double (double (maxSamplesPerPacket.toNat * 1000) / sampleRate.toNat)
    stripZerosAndDots (fixed12 (roundHalfEven (time.num.toNat * 10 ^ 12) time.den))

/-- A text made of lines, each followed by a newline. -/
def unlines (ls : List Text) : Text := ls.flatMap fun l => l ++ ['\n']

theorem unlines_cons (l : Text) (ls : List Text) : unlines (l :: ls) = l ++ '\n' :: unlines ls := by
  simp [unlines]

theorem getLines_unlines {ls : List Text} (h : ∀ l ∈ ls, '\n' ∉ l) : getLines (unlines ls) = ls := by
  induction ls with
  | nil => exact getLines_nil
  | cons l ls ih =>
      rw [unlines_cons, getLines_line_append (h l List.mem_cons_self),
        ih fun l' hl' => h l' (List.mem_cons_of_mem _ hl')]

/-- The reference clock after `a=ts-refclk:ptp=IEEE1588-2008:`. -/
def refclkText (ptp : Ptp) (info : StreamInfo) : Text :=
  if info.refclkPtpTraceable then "traceable".toList
  else ptp.status.gmid ++ ':' :: ofNat ptp.config.domain.toNat

/-- The lines one leg contributes, from `m=` to `a=ts-refclk`; `srcIp` is the
address in the source filter. -/
def mediaLines (ptp : Ptp) (sampleRate : UInt32) (ptime : Text) (info : StreamInfo)
    (stream : TRTPStreamInfo) (srcIp : Text) : List Text :=
  [ "m=audio ".toList ++ ofNat stream.usDestPort.toNat ++ " RTP/AVP ".toList ++
      ofNat stream.byPayloadType.toNat,
    "c=IN IP4 ".toList ++ Address.toText stream.ui32DestIP ++
      (if Address.inMulticast stream.ui32DestIP then '/' :: ofNat stream.byTTL.toNat else []),
    "a=source-filter: incl IN IP4 ".toList ++ Address.toText stream.ui32DestIP ++ ' ' :: srcIp,
    "a=rtpmap:".toList ++ ofNat stream.byPayloadType.toNat ++ ' ' :: (stream.cCodec ++
      '/' :: (ofNat sampleRate.toNat ++ '/' :: ofNat stream.byNbOfChannels.toNat)),
    "a=sync-time:0".toList,
    "a=framecount:".toList ++ ofNat stream.ui32MaxSamplesPerPacket.toNat,
    "a=ptime:".toList ++ ptime,
    "a=mediaclk:direct=0".toList,
    "a=clock-domain:PTPv2 ".toList ++ ofNat ptp.config.domain.toNat,
    "a=ts-refclk:ptp=IEEE1588-2008:".toList ++ refclkText ptp info ]

/-- `get_source_sdp_`: both legs are described when the source has two and the
secondary interface has an address. -/
def getSourceSdp (host : Host) (env : Env) (ptp : Ptp) (sampleRate : UInt32) (info : StreamInfo) :
    Text :=
  let secIpStr := ipText (env.secondaryIp host)
  let dupEntry := info.st20227Enabled && secIpStr != []
  let ptime := ptimeText host.double info.stream.leg0.ui32MaxSamplesPerPacket sampleRate
  unlines ([
      "v=0".toList,
      "o=- ".toList ++ ofNat info.sessionId.toNat ++ ' ' :: (ofNat info.sessionVersion.toNat ++
        " IN IP4 ".toList ++ Address.toText info.stream.leg0.ui32SrcIP),
      "s=".toList ++ host.config.nodeId ++ ' ' :: info.stream.leg0.cName,
      "t=0 0".toList ] ++
    (if dupEntry then ["a=group:DUP 1 2".toList] else []) ++
    mediaLines ptp sampleRate ptime info info.stream.leg0 host.config.ipAddrStr ++
    ["a=recvonly".toList] ++
    (if dupEntry then
      "a=mid:1".toList :: mediaLines ptp sampleRate ptime info info.stream.leg1 secIpStr ++
        ["a=mid:2".toList]
    else []))

/-- `get_removed_source_sdp_`. -/
def getRemovedSourceSdp (srcAddr sessionId sessionVersion : UInt32) : Text :=
  "o=- ".toList ++ ofNat sessionId.toNat ++ ' ' :: (ofNat sessionVersion.toNat ++
    " IN IP4 ".toList ++ Address.toText srcAddr ++ ['\n'])

end Aes67Daemon
