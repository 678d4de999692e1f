import Aes67Daemon.Lib.Columns
import Aes67Daemon.Session.Events
import Aes67Daemon.Session.Origin
import Aes67Daemon.Session.PacketTime

/-!
# Reading back the description of a source

`parse_sdp` reads the text of `get_source_sdp_` line by line.  Every line that
describes a leg comes back as it was printed, except for the packet size, which
goes through a packet time, and for the destination 255.255.255.255, which the
parser takes for an error.

## Main definitions

* `SdpParser.withLeg` — the parser after it has changed the current leg.
* `SdpParser.lines_mediaLines` — the section of one leg.
* `parseSdp_getSourceSdp` — the whole text.
* `RoundTrips`, `sdp_round_trip` — when a source comes back.
-/
namespace Aes67Daemon

open Text

/-! ## Lines of a text -/

theorem noSpaceLast_append {t u : Text} (ht : NoSpaceLast t) (hu : ∀ c ∈ u, isSpace c = false) :
    NoSpaceLast (t ++ u) := by
  cases h : u.getLast? with
  | none => rw [List.getLast?_eq_none_iff.mp h, List.append_nil]; exact ht
  | some d => exact NoSpaceLast.append ⟨d, h, hu d (List.mem_of_getLast? h)⟩ t

/-- Two characters at the front stay when a text is trimmed. -/
theorem trim_cons_cons {c d : Char} {t : Text} (hc : isSpace c = false) (hd : isSpace d = false) :
    ∃ u, trim (c :: d :: t) = c :: d :: u := by
  have hrev : (c :: d :: t).reverse = t.reverse ++ [d, c] := by simp
  rw [trim, trimLeft_cons hc, hrev, trimLeft, List.dropWhile_append]
  split
  · exact ⟨[], by simp [hd]⟩
  · exact ⟨(t.reverse.dropWhile isSpace).reverse, by simp⟩

namespace SdpParser
variable {host : Host} {ptp : Ptp} {p q : SdpParser} {cur : TRTPStreamInfo}

/-- The parser after it has changed the current leg. -/
def withLeg (p : SdpParser) (s : TRTPStreamInfo) : SdpParser :=
  { p with info.stream := p.info.stream.set p.mid s }

/-- The parser is in an audio section, with the given record of its leg. -/
structure InSection (p : SdpParser) (cur : TRTPStreamInfo) : Prop where
  status : p.status = .media
  leg : p.info.stream.at? p.mid = some cur
  mid : p.mid < mediaMax

theorem InSection.withLeg (h : p.InSection cur) (s : TRTPStreamInfo) :
    (p.withLeg s).InSection s := ⟨h.status, Legs.at?_set h.leg, h.mid⟩

@[simp] theorem withLeg_withLeg (s s' : TRTPStreamInfo) :
    (p.withLeg s).withLeg s' = p.withLeg s' := by
  simp [SdpParser.withLeg]

theorem modifyStream_of_leg (h : p.info.stream.at? p.mid = some cur)
    (f : TRTPStreamInfo → TRTPStreamInfo) : p.modifyStream f = .ok (p.withLeg (f cur)) :=
  modifyStream_eq_ok.mpr ⟨_, Legs.modify?_of_at? h, rfl⟩

theorem lines_cons (hmid : p.mid < mediaMax) {l : Text} (h : p.line host ptp l = .ok q)
    (ls : List Text) : p.lines host ptp (l :: ls) = q.lines host ptp ls := by
  rw [lines, if_pos hmid, h]
  rfl

theorem lines_cons_error (hmid : p.mid < mediaMax) {l : Text} {e : ParseFailure}
    (h : p.line host ptp l = .error e) (ls : List Text) :
    p.lines host ptp (l :: ls) = .error e := by
  rw [lines, if_pos hmid, h]
  rfl

/-! ## Lines by their type -/

theorem line_attr {l val : Text} (h : trim l = 'a' :: '=' :: val) :
    p.line host ptp l = p.attributeLine host ptp val := by
  simp [line, h]

theorem line_origin {l val : Text} (h : trim l = 'o' :: '=' :: val) :
    p.line host ptp l = p.originLine val := by
  simp [line, h]

theorem line_media {l val : Text} (h : trim l = 'm' :: '=' :: val) :
    p.line host ptp l = p.mediaLine val := by
  simp [line, h]

theorem line_connection {l val : Text} (h : trim l = 'c' :: '=' :: val) :
    p.line host ptp l = p.connectionLine val := by
  simp [line, h]

theorem line_mediaAttribute (hp : p.status = .media) {l val name value : Text}
    (h : trim l = 'a' :: '=' :: val) (hval : breakAt ':' val = some (name, value)) :
    p.line host ptp l = p.mediaAttribute host ptp name value := by
  rw [line_attr h, attributeLine, hval]
  simp only [hp]

/-! ## The lines of a section -/

theorem trim_typed {c : Char} {t u : Text} (ht : t = c :: '=' :: u) (hc : isSpace c = false)
    (hu : NoSpaceLast u) : trim t = c :: '=' :: u := by
  rw [ht, trim_of_noSpaceLast hc ((hu.cons '=').cons c)]

theorem isField_ofNat {p : Char → Bool} (hp : ∀ c, c.isDigit = true → p c = false) (n : ℕ) :
    ∀ c ∈ ofNat n, p c = false := fun c hc => hp c (digits_isDigit hc)

theorem isDigit_ne {c d : Char} (hd : d.isDigit = false) (h : c.isDigit = true) : c ≠ d := by
  rintro rfl
  rw [hd] at h
  cases h

theorem digit_ne_space (c : Char) (h : c.isDigit = true) : decide (c = ' ') = false :=
  decide_eq_false (isDigit_ne (by decide) h)

theorem digit_ne_separator (c : Char) (h : c.isDigit = true) :
    (decide (c = ' ') || decide (c = '/')) = false := by
  simp [isDigit_ne (d := ' ') (by decide) h, isDigit_ne (d := '/') (by decide) h]

theorem stoi_uint16 (n : UInt16) : stoi (ofNat n.toNat) = some (n.toNat : ℤ) :=
  stoi_ofNat (by have := n.toNat_lt; omega)

theorem stoi_uint8 (n : UInt8) : stoi (ofNat n.toNat) = some (n.toNat : ℤ) :=
  stoi_ofNat (by have := n.toNat_lt; omega)

theorem stoul_uint32 (n : UInt32) : stoul (ofNat n.toNat) = some n.toNat :=
  stoul_ofNat (lt_of_lt_of_le n.toNat_lt (by decide))

theorem openSection_of_leg (hcur : p.info.stream.at? p.mid = some cur) {f1 f3 : Text}
    {port payload : ℤ} (hport : stoi f1 = some port) (hpayload : stoi f3 = some payload) :
    p.openSection f1 f3 = .ok { (p.withLeg { cur with
      usDestPort := UInt16.ofInt port, byPayloadType := UInt8.ofInt payload }) with
      status := .media } := by
  rw [openSection, if_pos (lt_mediaMax_of_at? hcur), hport, hpayload]
  exact Parsed.bind_eq_ok.mpr ⟨port, rfl, Parsed.bind_eq_ok.mpr ⟨payload, rfl,
    Parsed.bind_eq_ok.mpr ⟨_, modifyStream_of_leg hcur _, rfl⟩⟩⟩

variable (host ptp) in
/-- The `m=` line opens the next section. -/
theorem line_audio (hcur : p.info.stream.at? (p.mid + 1) = some cur) (port : UInt16) (pt : UInt8) :
    ∃ q, p.line host ptp ("m=audio ".toList ++ ofNat port.toNat ++ " RTP/AVP ".toList ++
        ofNat pt.toNat) = .ok q ∧
      q = { ({ p with mid := p.mid + 1 }.withLeg
        { cur with usDestPort := port, byPayloadType := pt }) with status := .media } ∧
      q.InSection { cur with usDestPort := port, byPayloadType := pt } := by
  have hval : "m=audio ".toList ++ ofNat port.toNat ++ " RTP/AVP ".toList ++ ofNat pt.toNat =
      'm' :: '=' :: ("audio".toList ++ ' ' :: (ofNat port.toNat ++ ' ' ::
        ("RTP/AVP".toList ++ ' ' :: ofNat pt.toNat))) := by simp
  have htrim := trim_typed hval (by decide)
    ((((((noSpaceLast_ofNat _).cons ' ').append _).cons ' ').append _).cons ' ' |>.append _)
  have hsplit : splitBy (· = ' ') ("audio".toList ++ ' ' :: (ofNat port.toNat ++ ' ' ::
      ("RTP/AVP".toList ++ ' ' :: ofNat pt.toNat))) =
      ["audio".toList, ofNat port.toNat, "RTP/AVP".toList, ofNat pt.toNat] := by
    rw [splitBy_append_cons (isField_of_any (by decide)) (by decide),
      splitBy_append_cons (isField_ofNat digit_ne_space _) (by decide),
      splitBy_append_cons (isField_of_any (by decide)) (by decide),
      splitBy_eq_singleton (isField_ofNat digit_ne_space _)]
  refine ⟨_, ?_, rfl, rfl, Legs.at?_set hcur, lt_mediaMax_of_at? hcur⟩
  rw [line_media htrim, mediaLine, hsplit]
  simp only [if_true]
  rw [openSection_of_leg (p := { p with mid := p.mid + 1 }) hcur (stoi_uint16 port)
    (stoi_uint8 pt), uint16_ofInt_toNat, uint8_ofInt_toNat]

/-- What follows the address in a `c=` line. -/
def ttlText (dest : UInt32) (ttl : UInt8) : Text :=
  if Address.inMulticast dest then '/' :: ofNat ttl.toNat else []

/-- The TTL of a leg whose `c=` line was read. -/
def readTtl (dest : UInt32) (ttl : UInt8) : UInt8 := if Address.inMulticast dest then ttl else 64

/-- The fields of a `c=` line, and the TTL in them. -/
theorem connection_fields (dest : UInt32) (ttl : UInt8) :
    ∃ fs z, splitBy (fun c => c = ' ' || c = '/')
        ("IN".toList ++ ' ' :: ("IP4".toList ++ ' ' :: (Address.toText dest ++ ttlText dest ttl))) =
          "IN".toList :: "IP4".toList :: Address.toText dest :: fs ∧
      connectionTtl fs = .ok z ∧ UInt8.ofInt z = readTtl dest ttl := by
  have hip : ∀ c ∈ Address.toText dest, (decide (c = ' ') || decide (c = '/')) = false := by
    intro c hc
    have hspace : c ≠ ' ' := fun h => Address.not_mem_toText (by decide) (by decide) dest (h ▸ hc)
    have hslash : c ≠ '/' := fun h => Address.not_mem_toText (by decide) (by decide) dest (h ▸ hc)
    simp [hspace, hslash]
  rw [splitBy_append_cons (isField_of_any (by decide)) (by decide),
    splitBy_append_cons (isField_of_any (by decide)) (by decide)]
  simp only [ttlText, readTtl]
  split
  · refine ⟨[ofNat ttl.toNat], ttl.toNat, ?_, ?_, uint8_ofInt_toNat ttl⟩
    · rw [splitBy_append_cons hip (by decide),
        splitBy_eq_singleton (isField_ofNat digit_ne_separator _)]
    · rw [connectionTtl, stoi_uint8]
      rfl
  · refine ⟨[], 64, ?_, rfl, rfl⟩
    rw [List.append_nil, splitBy_eq_singleton hip]

theorem noSpaceLast_connection (dest : UInt32) (ttl : UInt8) :
    NoSpaceLast (Address.toText dest ++ ttlText dest ttl) := by
  rw [ttlText]
  split
  · exact ((noSpaceLast_ofNat _).cons '/').append _
  · rw [List.append_nil]
    exact Address.noSpaceLast_toText dest

variable (host ptp) in
/-- The `c=` line of a section, which the parser rejects when the destination is the
limited broadcast address. -/
theorem line_connectionData (h : p.InSection cur) (dest : UInt32) (ttl : UInt8) :
    p.line host ptp ("c=IN IP4 ".toList ++ Address.toText dest ++ ttlText dest ttl) =
      if dest = Address.inaddrNone then .error .rejected
      else .ok (p.withLeg { cur with ui32DestIP := dest, byTTL := readTtl dest ttl }) := by
  obtain ⟨fs, z, hsplit, hz, httl⟩ := connection_fields dest ttl
  have hval : "c=IN IP4 ".toList ++ Address.toText dest ++ ttlText dest ttl =
      'c' :: '=' :: ("IN".toList ++ ' ' :: ("IP4".toList ++ ' ' ::
        (Address.toText dest ++ ttlText dest ttl))) := by simp
  have htrim := trim_typed hval (by decide)
    ((((noSpaceLast_connection dest ttl).cons ' ').append _).cons ' ' |>.append _)
  have hstatus : p.status ≠ .time := by rw [h.status]; decide
  have hinit : p.status ≠ .init := by rw [h.status]; decide
  rw [line_connection htrim, connectionLine, if_neg hstatus, hsplit]
  simp only [ne_eq, not_true_eq_false, or_self, if_false, Address.ofText_toText, orReject]
  change (if dest = Address.inaddrNone then _ else _) = _
  split
  · rfl
  · rw [hz]
    change p.setConnection dest z = _
    rw [setConnection]
    simp only [if_neg hinit]
    rw [modifyStream_of_leg h.leg, httl]

/-- An attribute the parser does not know. -/
theorem line_unknown (h : p.InSection cur) {l val name value : Text}
    (htrim : trim l = 'a' :: '=' :: val) (hval : breakAt ':' val = some (name, value))
    (hname : name ∉ ["rtpmap".toList, "sync-time".toList, "framecount".toList, "ptime".toList,
      "mediaclk".toList, "ts-refclk".toList]) : p.line host ptp l = .ok p := by
  simp only [List.mem_cons, List.not_mem_nil, or_false, not_or] at hname
  rw [line_mediaAttribute h.status htrim hval, mediaAttribute, if_neg hname.1, if_neg hname.2.1,
    if_neg hname.2.2.1, if_neg hname.2.2.2.1, if_neg hname.2.2.2.2.1,
    if_neg fun hn => hname.2.2.2.2.2 hn.1]
  rfl

/-- `a=rtpmap`. -/
theorem line_rtpmap (h : p.InSection cur) {codec : Text}
    (hcodec : ∀ c ∈ codec, (decide (c = ' ') || decide (c = '/')) = false) (rate : UInt32)
    (channels : UInt8) :
    p.line host ptp ("a=rtpmap:".toList ++ ofNat cur.byPayloadType.toNat ++ ' ' :: (codec ++
        '/' :: (ofNat rate.toNat ++ '/' :: ofNat channels.toNat))) =
      .ok (p.withLeg { cur with
        cCodec := cStr host.codecSize codec
        byWordLength := getCodecWordLength codec
        ui32SamplingRate := rate }) := by
  have hval : "a=rtpmap:".toList ++ ofNat cur.byPayloadType.toNat ++ ' ' :: (codec ++
      '/' :: (ofNat rate.toNat ++ '/' :: ofNat channels.toNat)) = 'a' :: '=' :: ("rtpmap".toList ++
        ':' :: (ofNat cur.byPayloadType.toNat ++ ' ' :: (codec ++
          '/' :: (ofNat rate.toNat ++ '/' :: ofNat channels.toNat)))) := by simp
  have htrim := trim_typed hval (by decide)
    ((((((((noSpaceLast_ofNat _).cons '/').append _).cons '/').append _).cons ' ').append _).cons ':'
      |>.append _)
  have hsplit : splitBy (fun c => c = ' ' || c = '/') (ofNat cur.byPayloadType.toNat ++ ' ' ::
      (codec ++ '/' :: (ofNat rate.toNat ++ '/' :: ofNat channels.toNat))) =
      [ofNat cur.byPayloadType.toNat, codec, ofNat rate.toNat, ofNat channels.toNat] := by
    rw [splitBy_append_cons (isField_ofNat digit_ne_separator _) (by decide),
      splitBy_append_cons hcodec (by decide),
      splitBy_append_cons (isField_ofNat digit_ne_separator _) (by decide),
      splitBy_eq_singleton (isField_ofNat digit_ne_separator _)]
  rw [line_mediaAttribute h.status htrim (breakAt_append (by decide)), mediaAttribute, if_pos rfl,
    rtpmap, hsplit]
  refine Parsed.bind_eq_ok.mpr ⟨cur, by rw [h.leg]; rfl,
    Parsed.bind_eq_ok.mpr ⟨_, by rw [stoi_uint8]; rfl, ?_⟩⟩
  rw [if_pos rfl]
  refine Parsed.bind_eq_ok.mpr ⟨_, by rw [stoul_uint32]; rfl,
    Parsed.bind_eq_ok.mpr ⟨_, by rw [stoi_uint8]; rfl, ?_⟩⟩
  rw [modifyStream_of_leg h.leg, UInt32.ofNat_toNat]

theorem timestampOffset_zero (h : p.InSection cur) :
    p.timestampOffset "0".toList = .ok (p.withLeg { cur with ui32RTPTimestampOffset := 0 }) :=
  Parsed.bind_eq_ok.mpr ⟨0, by rw [show stoul "0".toList = some 0 by decide]; rfl,
    modifyStream_of_leg h.leg _⟩

/-- `a=sync-time`. -/
theorem line_syncTime (h : p.InSection cur) : p.line host ptp "a=sync-time:0".toList =
    .ok (p.withLeg { cur with ui32RTPTimestampOffset := 0 }) := by
  rw [line_mediaAttribute h.status (show _ = 'a' :: '=' :: "sync-time:0".toList by decide)
    (show _ = some ("sync-time".toList, "0".toList) by decide), mediaAttribute,
    if_neg (by decide), if_pos rfl, timestampOffset_zero h]

/-- `a=mediaclk`. -/
theorem line_mediaclk (h : p.InSection cur) : p.line host ptp "a=mediaclk:direct=0".toList =
    .ok (p.withLeg { cur with ui32RTPTimestampOffset := 0 }) := by
  rw [line_mediaAttribute h.status (show _ = 'a' :: '=' :: "mediaclk:direct=0".toList by decide)
    (show _ = some ("mediaclk".toList, "direct=0".toList) by decide), mediaAttribute,
    if_neg (by decide), if_neg (by decide), if_neg (by decide), if_neg (by decide), if_pos rfl,
    mediaclk, show splitBy (· = '=') "direct=0".toList = ["direct".toList, "0".toList] by decide]
  simp only [if_true]
  exact timestampOffset_zero h

/-- `a=ptime`. -/
theorem line_ptime (h : p.InSection cur) {ptime : Text} (hspace : ∀ c ∈ ptime, isSpace c = false)
    {time : Real64} (htime : stod host.double ptime = some time) :
    p.line host ptp ("a=ptime:".toList ++ ptime) = .ok (p.withLeg { cur with
      ui32MaxSamplesPerPacket := packetSamples host.double cur.ui32SamplingRate time }) := by
  have hval : "a=ptime:".toList ++ ptime = 'a' :: '=' :: ("ptime".toList ++ ':' :: ptime) := by simp
  have htrim := trim_typed hval (by decide)
    (by rw [← List.singleton_append, ← List.append_assoc]
        exact noSpaceLast_append ⟨':', by decide, by decide⟩ hspace)
  rw [line_mediaAttribute h.status htrim (breakAt_append (by decide)), mediaAttribute,
    if_neg (by decide), if_neg (by decide), if_neg (by decide), if_pos rfl]
  exact Parsed.bind_eq_ok.mpr ⟨cur, by rw [h.leg]; rfl,
    Parsed.bind_eq_ok.mpr ⟨time, by rw [htime]; rfl, modifyStream_of_leg h.leg _⟩⟩

/-- The characters of a grandmaster id. -/
theorem mem_formatGmid {g : UInt64} {c : Char} (h : c ∈ formatGmid g) :
    c = '-' ∨ ∃ n < 16, c = Nat.digitChar n := by
  have hbyte : ∀ b, c ∈ hexByte b → ∃ n < 16, c = Nat.digitChar n := by
    intro b hb
    rcases List.mem_cons.mp hb with rfl | hb
    · exact ⟨b / 16 % 16, Nat.mod_lt _ (by decide), rfl⟩
    · exact ⟨b % 16, Nat.mod_lt _ (by decide), List.mem_singleton.mp hb⟩
  rcases mem_intercalate h with hc | ⟨l, hl, hc⟩
  · exact .inl hc
  · obtain ⟨i, -, rfl⟩ := List.mem_map.mp hl
    exact .inr (hbyte _ hc)

/-- A grandmaster id has neither colons nor line breaks. -/
theorem not_mem_gmid (status : PTPStatus) {c : Char} (hc : c = ':' ∨ c = '\n') :
    c ∉ status.gmid := by
  intro hmem
  rcases status.gmid_format with h | ⟨g, h⟩
  · rw [h] at hmem
    cases hmem
  · rw [h] at hmem
    have hdigit : ∀ n < 16, Nat.digitChar n ≠ ':' ∧ Nat.digitChar n ≠ '\n' := by decide
    rcases mem_formatGmid hmem with rfl | ⟨n, hn, rfl⟩
    · rcases hc with hc | hc <;> exact absurd hc (by decide)
    · exact hc.elim (hdigit n hn).1 (hdigit n hn).2

/-- The reference clock of a source is the one the parser expects. -/
theorem tsRefclk_refclkText (info : StreamInfo) :
    p.tsRefclk ptp ("ptp=IEEE1588-2008:".toList ++ refclkText ptp info) = .ok p := by
  have hgmid : ∀ c ∈ ptp.status.gmid, decide (c = ':') = false := fun c hc =>
    decide_eq_false fun h => not_mem_gmid ptp.status (.inl rfl) (h ▸ hc)
  have hdomain : ∀ c ∈ ofNat ptp.config.domain.toNat, decide (c = ':') = false :=
    isField_ofNat (fun c h => decide_eq_false (isDigit_ne (by decide) h)) _
  have hpre : "ptp=IEEE1588-2008:".toList ++ refclkText ptp info =
      "ptp=IEEE1588-2008".toList ++ ':' :: refclkText ptp info := by simp
  rw [tsRefclk, hpre, splitBy_append_cons (isField_of_any (by decide)) (by decide), refclkText]
  by_cases htraceable : info.refclkPtpTraceable
  · rw [if_pos htraceable, splitBy_eq_singleton (isField_of_any (by decide))]
    rfl
  · rw [if_neg htraceable, splitBy_append_cons hgmid (by decide), splitBy_eq_singleton hdomain]
    simp only [ne_eq, not_true_eq_false, if_false]
    refine Parsed.bind_eq_ok.mpr ⟨_, by rw [stoi_uint8]; rfl, ?_⟩
    rw [if_neg (by simp)]
    rfl

/-- `a=ts-refclk`. -/
theorem line_tsRefclk (h : p.InSection cur) (info : StreamInfo) :
    p.line host ptp ("a=ts-refclk:ptp=IEEE1588-2008:".toList ++ refclkText ptp info) = .ok p := by
  have hval : "a=ts-refclk:ptp=IEEE1588-2008:".toList ++ refclkText ptp info = 'a' :: '=' ::
      ("ts-refclk".toList ++ ':' :: ("ptp=IEEE1588-2008:".toList ++ refclkText ptp info)) := by simp
  have hlast : NoSpaceLast (refclkText ptp info) := by
    rw [refclkText]
    split
    · exact ⟨'e', by decide, by decide⟩
    · exact ((noSpaceLast_ofNat _).cons ':').append _
  have htrim := trim_typed hval (by decide) (((hlast.append _).cons ':').append _)
  rw [line_mediaAttribute h.status htrim (breakAt_append (by decide)), mediaAttribute,
    if_neg (by decide), if_neg (by decide), if_neg (by decide), if_neg (by decide),
    if_neg (by decide)]
  split
  · exact tsRefclk_refclkText info
  · rfl

/-- The remaining attributes of a section. -/
theorem line_sourceFilter (h : p.InSection cur) (dest src : UInt32) :
    p.line host ptp ("a=source-filter: incl IN IP4 ".toList ++ Address.toText dest ++ ' ' ::
      Address.toText src) = .ok p := by
  have hval : "a=source-filter: incl IN IP4 ".toList ++ Address.toText dest ++ ' ' ::
      Address.toText src = 'a' :: '=' :: ("source-filter".toList ++ ':' ::
        (" incl IN IP4 ".toList ++ (Address.toText dest ++ ' ' :: Address.toText src))) := by simp
  have htrim := trim_typed hval (by decide)
    (((((Address.noSpaceLast_toText src).cons ' ').append _).append _).cons ':' |>.append _)
  exact line_unknown h htrim (breakAt_append (by decide)) (by decide)

theorem line_framecount (h : p.InSection cur) (n : UInt32) :
    p.line host ptp ("a=framecount:".toList ++ ofNat n.toNat) = .ok p := by
  have hval : "a=framecount:".toList ++ ofNat n.toNat = 'a' :: '=' ::
      ("framecount".toList ++ ':' :: ofNat n.toNat) := by simp
  have htrim := trim_typed hval (by decide) (((noSpaceLast_ofNat _).cons ':').append _)
  rw [line_mediaAttribute h.status htrim (breakAt_append (by decide)), mediaAttribute,
    if_neg (by decide), if_neg (by decide), if_pos rfl]
  rfl

theorem line_clockDomain (h : p.InSection cur) (domain : UInt8) :
    p.line host ptp ("a=clock-domain:PTPv2 ".toList ++ ofNat domain.toNat) = .ok p := by
  have hval : "a=clock-domain:PTPv2 ".toList ++ ofNat domain.toNat = 'a' :: '=' ::
      ("clock-domain".toList ++ ':' :: ("PTPv2 ".toList ++ ofNat domain.toNat)) := by simp
  have htrim := trim_typed hval (by decide) ((((noSpaceLast_ofNat _).append _).cons ':').append _)
  exact line_unknown h htrim (breakAt_append (by decide)) (by decide)

/-! ## A section -/

/-- The record of a leg after its section was read. -/
def readLeg (host : Host) (rate : UInt32) (time : Real64) (stream cur : TRTPStreamInfo) :
    TRTPStreamInfo :=
  { cur with
    usDestPort := stream.usDestPort
    byPayloadType := stream.byPayloadType
    ui32DestIP := stream.ui32DestIP
    byTTL := readTtl stream.ui32DestIP stream.byTTL
    cCodec := cStr host.codecSize stream.cCodec
    byWordLength := getCodecWordLength stream.cCodec
    ui32SamplingRate := rate
    ui32MaxSamplesPerPacket := packetSamples host.double rate time
    ui32RTPTimestampOffset := 0 }

variable (host ptp) in
/-- **The section of a leg comes back**, unless its destination is the limited
broadcast address. -/
theorem lines_mediaLines (hmid : p.mid < mediaMax) (hcur : p.info.stream.at? (p.mid + 1) = some cur)
    {rate : UInt32} {ptime : Text} {time : Real64} (hspace : ∀ c ∈ ptime, isSpace c = false)
    (htime : stod host.double ptime = some time) (info : StreamInfo) {stream : TRTPStreamInfo}
    (hcodec : ∀ c ∈ stream.cCodec, (decide (c = ' ') || decide (c = '/')) = false) (src : UInt32) :
    ∃ q : SdpParser, q = { ({ p with mid := p.mid + 1 }.withLeg
        (readLeg host rate time stream cur)) with status := .media } ∧
      q.InSection (readLeg host rate time stream cur) ∧ ∀ rest,
        p.lines host ptp (mediaLines ptp rate ptime info stream (Address.toText src) ++ rest) =
          if stream.ui32DestIP = Address.inaddrNone then .error .rejected
          else q.lines host ptp rest := by
  obtain ⟨q, hq, hqeq, h1⟩ := line_audio host ptp hcur stream.usDestPort
    stream.byPayloadType
  refine ⟨q.withLeg (readLeg host rate time stream cur), ?_, h1.withLeg _, fun rest => ?_⟩
  · rw [hqeq]
    simp only [SdpParser.withLeg, Legs.set_set]
  simp only [mediaLines, List.cons_append, List.nil_append]
  rw [lines_cons hmid hq, ← ttlText]
  have hconn := line_connectionData host ptp h1 stream.ui32DestIP stream.byTTL
  by_cases hnone : stream.ui32DestIP = Address.inaddrNone
  · rw [if_pos hnone] at hconn ⊢
    exact lines_cons_error h1.mid hconn _
  · rw [if_neg hnone] at hconn ⊢
    have h2 := h1.withLeg { cur with
      usDestPort := stream.usDestPort, byPayloadType := stream.byPayloadType
      ui32DestIP := stream.ui32DestIP, byTTL := readTtl stream.ui32DestIP stream.byTTL }
    have h3 := h2.withLeg { cur with
      usDestPort := stream.usDestPort, byPayloadType := stream.byPayloadType
      ui32DestIP := stream.ui32DestIP, byTTL := readTtl stream.ui32DestIP stream.byTTL
      cCodec := cStr host.codecSize stream.cCodec
      byWordLength := getCodecWordLength stream.cCodec, ui32SamplingRate := rate }
    have h4 := h3.withLeg { cur with
      usDestPort := stream.usDestPort, byPayloadType := stream.byPayloadType
      ui32DestIP := stream.ui32DestIP, byTTL := readTtl stream.ui32DestIP stream.byTTL
      cCodec := cStr host.codecSize stream.cCodec
      byWordLength := getCodecWordLength stream.cCodec, ui32SamplingRate := rate
      ui32RTPTimestampOffset := 0 }
    have h5 := h4.withLeg (readLeg host rate time stream cur)
    have h6 := h5.withLeg (readLeg host rate time stream cur)
    rw [lines_cons h1.mid hconn, lines_cons h2.mid (line_sourceFilter h2 _ _),
      lines_cons h2.mid (line_rtpmap h2 hcodec rate stream.byNbOfChannels),
      lines_cons h3.mid (line_syncTime h3), lines_cons h4.mid (line_framecount h4 _),
      lines_cons h4.mid ((line_ptime h4 hspace htime).trans
        (congrArg Except.ok (congrArg _ (show _ = readLeg host rate time stream cur from rfl)))),
      lines_cons h5.mid ((line_mediaclk h5).trans
        (congrArg Except.ok (congrArg _ (show _ = readLeg host rate time stream cur from rfl)))),
      lines_cons h6.mid (line_clockDomain h6 _), lines_cons h6.mid (line_tsRefclk h6 info)]
    simp only [withLeg_withLeg]

/-! ## The whole text -/

/-- The lines before the first section. -/
def headerLines (host : Host) (info : StreamInfo) (dup : Bool) : List Text :=
  [ "v=0".toList,
    "o=- ".toList ++ ofNat info.sessionId.toNat ++ ' ' :: (ofNat info.sessionVersion.toNat ++
      " IN IP4 ".toList ++ Address.toText info.stream.leg0.ui32SrcIP),
    "s=".toList ++ host.config.nodeId ++ ' ' :: info.stream.leg0.cName,
    "t=0 0".toList ] ++ if dup then ["a=group:DUP 1 2".toList] else []

/-- The parser after the lines before the first section. -/
def afterHeader (base info : StreamInfo) (dup : Bool) : SdpParser :=
  { info := { base with origin := info.sourceOrigin }, status := .time, dup := dup }

/-- The first two lines. -/
def versionLines (info : StreamInfo) : List Text :=
  [ "v=0".toList,
    "o=- ".toList ++ ofNat info.sessionId.toNat ++ ' ' :: (ofNat info.sessionVersion.toNat ++
      " IN IP4 ".toList ++ Address.toText info.stream.leg0.ui32SrcIP) ]

/-- The line with the name. -/
def nameLine (host : Host) (name : Text) : Text := "s=".toList ++ host.config.nodeId ++ ' ' :: name

theorem headerLines_eq (info : StreamInfo) (dup : Bool) : headerLines host info dup = versionLines info ++
    nameLine host info.stream.leg0.cName :: "t=0 0".toList :: if dup then ["a=group:DUP 1 2".toList] else [] := rfl

/-- The parser after the first two lines. -/
def afterVersion (base info : StreamInfo) : SdpParser := { info := { base with origin := info.sourceOrigin } }

theorem line_sourceOrigin (info : StreamInfo) :
    p.line host ptp ("o=- ".toList ++ ofNat info.sessionId.toNat ++ ' ' ::
      (ofNat info.sessionVersion.toNat ++ " IN IP4 ".toList ++
        Address.toText info.stream.leg0.ui32SrcIP)) =
      .ok { p with info.origin := info.sourceOrigin } := by
  have hval : "o=- ".toList ++ ofNat info.sessionId.toNat ++ ' ' ::
      (ofNat info.sessionVersion.toNat ++ " IN IP4 ".toList ++
        Address.toText info.stream.leg0.ui32SrcIP) = 'o' :: '=' :: ("- ".toList ++
      ofNat info.sessionId.toNat ++ ' ' :: (ofNat info.sessionVersion.toNat ++ " IN IP4 ".toList ++
        Address.toText info.stream.leg0.ui32SrcIP)) := by simp
  have htrim := trim_typed hval (by decide)
    ((((Address.noSpaceLast_toText _).append _).cons ' ').append _)
  rw [line_origin htrim, originLine, splitBy_origin]
  exact Parsed.bind_eq_ok.mpr ⟨_, by rw [stoul_uint32]; rfl, rfl⟩

theorem lines_versionLines (base info : StreamInfo) (rest : List Text) :
    SdpParser.lines host ptp { info := base } (versionLines info ++ rest) =
      (afterVersion base info).lines host ptp rest := by
  have hmid : (-1 : ℤ) < mediaMax := by decide
  have hversion : ∀ p : SdpParser, p.line host ptp "v=0".toList = .ok p := by
    intro p
    simp only [line, show trim "v=0".toList = ['v', '=', '0'] by decide]
    rfl
  unfold versionLines
  simp only [List.cons_append, List.nil_append]
  rw [lines_cons hmid (hversion _), lines_cons hmid (line_sourceOrigin info)]
  rfl

/-- The line with the name says nothing. -/
theorem line_nameLine (name : Text) : p.line host ptp (nameLine host name) = .ok p := by
  have hname : nameLine host name = 's' :: '=' :: (host.config.nodeId ++ ' ' :: name) := by
    unfold nameLine
    simp
  obtain ⟨u, hu⟩ := trim_cons_cons (c := 's') (d := '=')
    (t := host.config.nodeId ++ ' ' :: name) (by decide) (by decide)
  simp only [line, hname, hu]
  rfl

theorem lines_header (base info : StreamInfo) (dup : Bool) (rest : List Text) :
    SdpParser.lines host ptp { info := base } (headerLines host info dup ++ rest) =
      (afterHeader base info dup).lines host ptp rest := by
  have hmid : (-1 : ℤ) < mediaMax := by decide
  have htime : ∀ p : SdpParser, p.line host ptp "t=0 0".toList = .ok { p with status := .time } := by
    intro p
    simp only [line, show trim "t=0 0".toList = ['t', '=', '0', ' ', '0'] by decide]
    rfl
  have hgroup : ∀ p : SdpParser, p.status = .time →
      p.line host ptp "a=group:DUP 1 2".toList = .ok { p with dup := true } := by
    intro p hp
    rw [line_attr (show _ = 'a' :: '=' :: "group:DUP 1 2".toList by decide), attributeLine,
      show breakAt ':' "group:DUP 1 2".toList = some ("group".toList, "DUP 1 2".toList) by decide]
    simp only [hp]
    rw [sessionAttribute, if_pos rfl, if_pos (by decide), hp]
    rfl
  rw [headerLines_eq, List.append_assoc, lines_versionLines]
  simp only [List.cons_append]
  rw [lines_cons hmid (line_nameLine _), lines_cons hmid (htime _)]
  cases dup with
  | false => rfl
  | true =>
      simp only [if_true, List.cons_append, List.nil_append]
      rw [lines_cons hmid (hgroup _ rfl)]
      rfl

theorem newline_mediaLines {rate : UInt32} {ptime : Text} (hptime : '\n' ∉ ptime)
    {info : StreamInfo} {stream : TRTPStreamInfo} (hcodec : '\n' ∉ stream.cCodec) (src : UInt32) :
    ∀ l ∈ mediaLines ptp rate ptime info stream (Address.toText src), '\n' ∉ l := by
  have hnat : ∀ n, '\n' ∉ ofNat n := not_mem_ofNat (by decide)
  have hip : ∀ a, '\n' ∉ Address.toText a := Address.not_mem_toText (by decide) (by decide)
  have hclock : '\n' ∉ refclkText ptp info := by
    rw [refclkText]
    split
    · decide
    · simp [not_mem_gmid ptp.status (.inr rfl), hnat]
  have httl : '\n' ∉ ttlText stream.ui32DestIP stream.byTTL := by
    rw [ttlText]
    split <;> simp [hnat]
  intro l hl
  rw [mediaLines, ← ttlText] at hl
  simp only [List.mem_cons, List.not_mem_nil, or_false] at hl
  rcases hl with rfl | rfl | rfl | rfl | rfl | rfl | rfl | rfl | rfl | rfl <;>
    simp [hnat, hip, hclock, httl, hptime, hcodec]

theorem newline_versionLines (info : StreamInfo) : ∀ l ∈ versionLines info, '\n' ∉ l := by
  have hnat : ∀ n, '\n' ∉ ofNat n := not_mem_ofNat (by decide)
  have hip : ∀ a, '\n' ∉ Address.toText a := Address.not_mem_toText (by decide) (by decide)
  intro l hl
  rcases List.mem_pair.mp hl with rfl | rfl
  · decide
  · simp [hnat, hip]

theorem newline_nameLine (hnode : '\n' ∉ host.config.nodeId) {name : Text} (hname : '\n' ∉ name) :
    '\n' ∉ nameLine host name := by
  unfold nameLine
  simp [hnode, hname]

theorem newline_headerLines {info : StreamInfo} (hnode : '\n' ∉ host.config.nodeId)
    (hname : '\n' ∉ info.stream.leg0.cName) (dup : Bool) :
    ∀ l ∈ headerLines host info dup, '\n' ∉ l := by
  intro l hl
  rw [headerLines_eq] at hl
  rcases List.mem_append.mp hl with hl | hl
  · exact newline_versionLines info l hl
  rcases List.mem_cons.mp hl with rfl | hl
  · exact newline_nameLine hnode hname
  rcases List.mem_cons.mp hl with rfl | hl
  · decide
  cases dup with
  | false => cases hl
  | true =>
      obtain rfl := List.mem_singleton.mp hl
      decide

theorem line_recvonly : p.line host ptp "a=recvonly".toList = .ok p := by
  rw [line_attr (show _ = 'a' :: '=' :: "recvonly".toList by decide), attributeLine,
    show breakAt ':' "recvonly".toList = none by decide]
  rfl

/-- The interface of the secondary leg a text describes. -/
def describedSecondary (host : Host) (env : Env) (info : StreamInfo) : Option UInt32 :=
  if info.st20227Enabled then env.secondaryIp host else none

/-- The lines of the secondary leg, sent from `ip`. -/
def secondLines (ptp : Ptp) (rate : UInt32) (ptime : Text) (info : StreamInfo) :
    Option UInt32 → List Text
  | none => []
  | some ip => "a=mid:1".toList ::
      (mediaLines ptp rate ptime info info.stream.leg1 (Address.toText ip) ++ ["a=mid:2".toList])

theorem getSourceSdp_eq (env : Env) (rate : UInt32) (info : StreamInfo) :
    getSourceSdp host env ptp rate info =
      unlines (headerLines host info (describedSecondary host env info).isSome ++
        (mediaLines ptp rate (ptimeText host.double info.stream.leg0.ui32MaxSamplesPerPacket rate) info
            info.stream.leg0 (Address.toText host.config.ipAddr) ++
          "a=recvonly".toList :: secondLines ptp rate
            (ptimeText host.double info.stream.leg0.ui32MaxSamplesPerPacket rate) info
            (describedSecondary host env info))) := by
  have hne : ∀ ip, (Address.toText ip != []) = true := fun ip => by simp
  cases hst : info.st20227Enabled <;> cases hip : env.secondaryIp host <;>
    simp [getSourceSdp, headerLines, secondLines, describedSecondary, Config.ipAddrStr, hst, hip, hne]

/-- A packet time is made of digits and a point. -/
theorem mem_ptimeText {double : ℚ → ℚ} {n rate : UInt32} (hrate : rate ≠ 0) {c : Char} (h : c ∈ ptimeText double n rate) :
    c.isDigit = true ∨ c = '.' := by
  rw [ptimeText, if_neg hrate, stripZerosAndDots, List.mem_reverse] at h
  have hmem := List.mem_reverse.mp ((List.dropWhile_sublist _).subset h)
  rw [fixed12_eq] at hmem
  rcases List.mem_append.mp hmem with hmem | hmem
  · exact .inl (digits_isDigit hmem)
  · rcases List.mem_cons.mp hmem with rfl | hmem
    · exact .inr rfl
    · exact .inl (padded_isDigit _ hmem)

theorem isSpace_ptimeText {double : ℚ → ℚ} {n rate : UInt32} (hrate : rate ≠ 0) :
    ∀ c ∈ ptimeText double n rate, isSpace c = false := by
  intro c hc
  rcases mem_ptimeText hrate hc with hc | rfl
  · exact isSpace_of_isDigit hc
  · decide

/-- The codecs `get_codec_word_length` knows. -/
def knownCodecs : List Text :=
  [ "L16".toList, "L24".toList, "L2432".toList, "AM824".toList, "DSD64".toList, "DSD128".toList,
    "DSD64_32".toList, "DSD128_32".toList, "DSD256".toList ]

theorem mem_knownCodecs {codec : Text} (h : getCodecWordLength codec ≠ 0) :
    codec ∈ knownCodecs := by
  rw [getCodecWordLength] at h
  split_ifs at h with h1 h2 h3 h4 h5 h6
  · subst h1; decide
  · subst h2; decide
  · rcases h3 with rfl | rfl <;> decide
  · subst h4; decide
  · subst h5; decide
  · rcases h6 with rfl | rfl | rfl <;> decide
  · exact absurd rfl h

/-- The known codecs are single fields, and short. -/
theorem codec_field {codec : Text} (h : getCodecWordLength codec ≠ 0) :
    (∀ c ∈ codec, (decide (c = ' ') || decide (c = '/')) = false) ∧ '\n' ∉ codec ∧
      '\x00' ∉ codec ∧ codec.length ≤ 9 := by
  have hall : ∀ codec ∈ knownCodecs,
      (codec.any fun c => decide (c = ' ') || decide (c = '/')) = false ∧ '\n' ∉ codec ∧
        '\x00' ∉ codec ∧ codec.length ≤ 9 := by decide
  obtain ⟨hany, hrest⟩ := hall codec (mem_knownCodecs h)
  exact ⟨isField_of_any hany, hrest⟩

theorem cStr_codec {size : ℕ} (hsize : 9 < size) {codec : Text} (h : getCodecWordLength codec ≠ 0) :
    cStr size codec = codec := by
  obtain ⟨-, -, hnul, hlen⟩ := codec_field h
  exact cStr_eq_self_iff.mpr ⟨hnul, by omega⟩

variable (ptp) in
theorem newline_getSourceSdp (double : ℚ → ℚ) (hnode : '\n' ∉ host.config.nodeId) {info : StreamInfo}
    (hname : '\n' ∉ info.stream.leg0.cName) {rate : UInt32} (hrate : rate ≠ 0)
    (hcodec0 : '\n' ∉ info.stream.leg0.cCodec) {n : UInt32} {second : Option UInt32}
    (hcodec1 : second.isSome → '\n' ∉ info.stream.leg1.cCodec) :
    ∀ l ∈ headerLines host info second.isSome ++
      (mediaLines ptp rate (ptimeText double n rate) info info.stream.leg0
        (Address.toText host.config.ipAddr) ++
        "a=recvonly".toList :: secondLines ptp rate (ptimeText double n rate) info second), '\n' ∉ l := by
  have hptime : '\n' ∉ ptimeText double n rate := fun h => by
    have hspace := isSpace_ptimeText hrate _ h
    revert hspace
    decide
  intro l hl
  rcases List.mem_append.mp hl with hl | hl
  · exact newline_headerLines hnode hname _ l hl
  rcases List.mem_append.mp hl with hl | hl
  · exact newline_mediaLines hptime hcodec0 _ l hl
  rcases List.mem_cons.mp hl with rfl | hl
  · decide
  cases second with
  | none => cases hl
  | some ip =>
      rcases List.mem_cons.mp hl with rfl | hl
      · decide
      rcases List.mem_append.mp hl with hl | hl
      · exact newline_mediaLines hptime (hcodec1 rfl) _ l hl
      · obtain rfl := List.mem_singleton.mp hl
        decide

theorem line_mid1 (h : p.InSection cur) : p.line host ptp "a=mid:1".toList = .ok p :=
  line_unknown h (show _ = 'a' :: '=' :: "mid:1".toList by decide)
    (show _ = some ("mid".toList, "1".toList) by decide) (by decide)

theorem line_mid2 (h : p.InSection cur) : p.line host ptp "a=mid:2".toList = .ok p :=
  line_unknown h (show _ = 'a' :: '=' :: "mid:2".toList by decide)
    (show _ = some ("mid".toList, "2".toList) by decide) (by decide)

/-- The section of the secondary leg, after the one of the primary leg. -/
theorem lines_secondLines {cur0 : TRTPStreamInfo} (h : p.InSection cur0) (hmid : p.mid = 0)
    {rate : UInt32} {ptime : Text} {time : Real64} (hspace : ∀ c ∈ ptime, isSpace c = false)
    (htime : stod host.double ptime = some time) (info : StreamInfo)
    (hcodec : ∀ c ∈ info.stream.leg1.cCodec, (decide (c = ' ') || decide (c = '/')) = false)
    (ip : UInt32) :
    p.lines host ptp (secondLines ptp rate ptime info (some ip)) =
      if info.stream.leg1.ui32DestIP = Address.inaddrNone then .error .rejected
      else .ok { p with
        mid := 1
        info.stream.leg1 :=
          readLeg host rate time info.stream.leg1 p.info.stream.leg1 } := by
  have hleg : p.info.stream.at? (p.mid + 1) = some p.info.stream.leg1 := by
    simp [hmid, Legs.at?]
  obtain ⟨q, hqeq, hq, hlines⟩ := lines_mediaLines host ptp h.mid hleg hspace htime info hcodec ip
  rw [secondLines, lines_cons h.mid (line_mid1 h), hlines]
  split
  · rfl
  · rw [lines_cons hq.mid (line_mid2 hq), hqeq, lines]
    simp only [SdpParser.withLeg, Legs.set, hmid, h.status]
    rfl

end SdpParser

open SdpParser

/-- What a parser reads from the description of a source. -/
def readInfo (host : Host) (rate : UInt32) (time : Real64) (info base : StreamInfo) (dual : Bool) :
    StreamInfo :=
  { base with
    stream := ⟨readLeg host rate time info.stream.leg0 base.stream.leg0,
      if dual then readLeg host rate time info.stream.leg1 base.stream.leg1 else base.stream.leg1⟩
    st20227Enabled := dual || base.st20227Enabled
    origin := info.sourceOrigin }

/-- **The description of a source is read back**, unless a leg it describes has the limited
broadcast address as its destination. -/
theorem parseSdp_getSourceSdp {host : Host} (hnode : '\n' ∉ host.config.nodeId) (env : Env) (ptp : Ptp)
    {rate : UInt32} (hrate : rate ≠ 0) {info : StreamInfo} (hname : '\n' ∉ info.stream.leg0.cName)
    (hcodec0 : getCodecWordLength info.stream.leg0.cCodec ≠ 0)
    (hcodec1 : (describedSecondary host env info).isSome →
      getCodecWordLength info.stream.leg1.cCodec ≠ 0)
    {time : Real64} (htime : stod host.double (ptimeText host.double info.stream.leg0.ui32MaxSamplesPerPacket rate) = some time)
    (base : StreamInfo) :
    parseSdp host ptp (getSourceSdp host env ptp rate info) base =
      if info.stream.leg0.ui32DestIP = Address.inaddrNone ∨
          ((describedSecondary host env info).isSome ∧
            info.stream.leg1.ui32DestIP = Address.inaddrNone) then .error .rejected
      else .ok (readInfo host rate time info base (describedSecondary host env info).isSome) := by
  have hspace := @isSpace_ptimeText host.double info.stream.leg0.ui32MaxSamplesPerPacket rate hrate
  rw [getSourceSdp_eq]
  generalize hsec : describedSecondary host env info = second at *
  have hnl := newline_getSourceSdp ptp host.double hnode hname hrate (codec_field hcodec0).2.1
    (n := info.stream.leg0.ui32MaxSamplesPerPacket) fun h => (codec_field (hcodec1 h)).2.1
  have hcur : (afterHeader base info second.isSome).info.stream.at?
      ((afterHeader base info second.isSome).mid + 1) = some base.stream.leg0 := rfl
  obtain ⟨q, hqeq, hq, hlines⟩ := lines_mediaLines host ptp (show (-1 : ℤ) < mediaMax by decide) hcur
    hspace htime info (codec_field hcodec0).1 host.config.ipAddr
  rw [parseSdp, getLines_unlines hnl, lines_header, hlines]
  by_cases h0 : info.stream.leg0.ui32DestIP = Address.inaddrNone
  · rw [if_pos h0, if_pos (.inl h0)]
    rfl
  rw [if_neg h0, lines_cons hq.mid line_recvonly]
  cases second with
  | none =>
      rw [if_neg (by simp [h0]), hqeq]
      rfl
  | some ip =>
      rw [lines_secondLines hq (by rw [hqeq]; rfl) hspace htime info (codec_field (hcodec1 rfl)).1]
      by_cases h1 : info.stream.leg1.ui32DestIP = Address.inaddrNone
      · rw [if_pos h1, if_pos (.inr ⟨rfl, h1⟩)]
        rfl
      · rw [if_neg h1, if_neg (by simp [h0, h1]), hqeq]
        rfl

/-! ## When a source comes back -/

/-- A leg that was read says what the leg that was sent says. -/
structure SameLeg (sent read : TRTPStreamInfo) : Prop where
  usDestPort : read.usDestPort = sent.usDestPort
  byPayloadType : read.byPayloadType = sent.byPayloadType
  cCodec : read.cCodec = sent.cCodec
  byWordLength : read.byWordLength = sent.byWordLength
  ui32SamplingRate : read.ui32SamplingRate = sent.ui32SamplingRate
  ui32DestIP : read.ui32DestIP = sent.ui32DestIP
  byTTL : read.byTTL = sent.byTTL
  byTTL_unicast : Address.inMulticast sent.ui32DestIP = false → read.byTTL = 64
  ui32MaxSamplesPerPacket : read.ui32MaxSamplesPerPacket = sent.ui32MaxSamplesPerPacket
  ui32RTPTimestampOffset : read.ui32RTPTimestampOffset = 0

/-- A text describes every leg of a source to a parser that starts from `base`. -/
def RoundTrips (host : Host) (ptp : Ptp) (sdp : Text) (base info : StreamInfo) : Prop :=
  ∃ parsed, parseSdp host ptp sdp base = .ok parsed ∧
    parsed.st20227Enabled = info.st20227Enabled ∧
    SameLeg info.stream.leg0 parsed.stream.leg0 ∧
    (info.st20227Enabled = true → SameLeg info.stream.leg1 parsed.stream.leg1)

/-- A leg as the session manager stores it for a source. -/
structure SourceLeg (host : Host) (codec : Text) (rate n : UInt32) (s : TRTPStreamInfo) : Prop where
  cCodec : s.cCodec = cStr host.codecSize codec
  byWordLength : s.byWordLength = getCodecWordLength codec
  ui32SamplingRate : s.ui32SamplingRate = rate
  ui32MaxSamplesPerPacket : s.ui32MaxSamplesPerPacket = n
  byTTL : Address.inMulticast s.ui32DestIP = false → s.byTTL = 64

theorem sourceLeg_sourceStream {host : Host} {env : Env} {source : StreamSource} {rate : UInt32}
    {stream : TRTPStreamInfo}
    (h : SessionManager.sourceStream host env source rate = some stream) :
    SourceLeg host source.codec rate source.maxSamplesPerPacket stream := by
  simp only [SessionManager.sourceStream] at h
  split at h
  · rename_i hm
    cases h
    exact ⟨rfl, rfl, rfl, rfl, fun hf => absurd hm (by simp only at hf; simp [hf])⟩
  · obtain ⟨mac, -, rfl⟩ := Option.map_eq_some_iff.mp h
    exact ⟨rfl, rfl, rfl, rfl, fun _ => rfl⟩

theorem SourceLeg.sec {host : Host} {codec : Text} {rate n : UInt32} {stream : TRTPStreamInfo}
    (h : SourceLeg host codec rate n stream) (source : StreamSource) (ip : UInt32) :
    SourceLeg host codec rate n (SessionManager.sourceStreamSec host source ip stream) :=
  ⟨h.cCodec, h.byWordLength, h.ui32SamplingRate, h.ui32MaxSamplesPerPacket, fun hf => by
    simp only [SessionManager.sourceStreamSec] at hf ⊢
    simp [hf]⟩

/-- A leg of a source is the same when it was read, but perhaps for the packet size. -/
theorem sameLeg_readLeg {host : Host} (hsize : 9 < host.codecSize) {codec : Text}
    (hcodec : getCodecWordLength codec ≠ 0) {rate n : UInt32} {sent : TRTPStreamInfo}
    (h : SourceLeg host codec rate n sent) (time : Real64) (cur : TRTPStreamInfo) :
    SameLeg sent (readLeg host rate time sent cur) ↔ packetSamples host.double rate time = n := by
  have hc : sent.cCodec = codec := h.cCodec.trans (cStr_codec hsize hcodec)
  constructor
  · intro hsame
    exact hsame.ui32MaxSamplesPerPacket.trans h.ui32MaxSamplesPerPacket
  · intro hn
    have httl : readTtl sent.ui32DestIP sent.byTTL = sent.byTTL := by
      rw [readTtl]
      split
      · rfl
      · rename_i hm
        exact (h.byTTL (by simpa using hm)).symm
    exact {
      usDestPort := rfl
      byPayloadType := rfl
      cCodec := by simp only [readLeg, hc, cStr_codec hsize hcodec]
      byWordLength := by simp only [readLeg, hc, h.byWordLength]
      ui32SamplingRate := h.ui32SamplingRate.symm
      ui32DestIP := rfl
      byTTL := httl
      byTTL_unicast := fun hm => httl.trans (h.byTTL hm)
      ui32MaxSamplesPerPacket := hn.trans h.ui32MaxSamplesPerPacket.symm
      ui32RTPTimestampOffset := rfl }

/-- A source with two legs. -/
def StreamSource.dualLeg (host : Host) (env : Env) (source : StreamSource) : Prop :=
  source.enabled = true ∧ source.useSecondary = true ∧ (env.secondaryIp host).isSome = true

instance (host : Host) (env : Env) (source : StreamSource) : Decidable (source.dualLeg host env) :=
  inferInstanceAs (Decidable (_ ∧ _))

/-- What `add_source` has stored when it succeeds. -/
structure StoredSource (host : Host) (env : Env) (source : StreamSource) (rate : UInt32)
    (info : StreamInfo) : Prop where
  name : info.stream.leg0.cName = cStr host.nameSize source.name
  leg0 : SourceLeg host source.codec rate source.maxSamplesPerPacket info.stream.leg0
  dest0 : info.stream.leg0.ui32DestIP = SessionManager.sourceDestIP host source
  dual : info.st20227Enabled = true ↔ source.dualLeg host env
  leg1 : info.st20227Enabled = true →
    SourceLeg host source.codec rate source.maxSamplesPerPacket info.stream.leg1
  dest1 : info.st20227Enabled = true →
    info.stream.leg1.ui32DestIP = SessionManager.sourceDestIPSec host source

theorem storedSource_of_stored {host : Host} {env : Env} {source : StreamSource} {rate v : UInt32}
    {stream : TRTPStreamInfo} {info : StreamInfo}
    (hstream : SessionManager.sourceStream host env source rate = some stream)
    (h : SessionManager.Stored host (.addSource env source)
      (SessionManager.sourceInfo host source stream v) info) :
    StoredSource host env source rate info := by
  obtain ⟨-, -, hname, -, hdest⟩ := SessionManager.sourceStream_fields hstream
  have hleg := sourceLeg_sourceStream hstream
  cases h with
  | placed hlive =>
      have hoff : source.enabled = false := hlive
      exact ⟨hname, hleg, hdest, by simp [StreamSource.dualLeg, SessionManager.sourceInfo, hoff],
        fun hst => (by cases hst), fun hst => (by cases hst)⟩
  | single h0 _ hleg1 =>
      refine ⟨hname, hleg, hdest, ?_, fun hst => (by cases hst), fun hst => (by cases hst)⟩
      simp only [Request.secondLeg, Option.map_eq_none_iff, ite_eq_right_iff] at hleg1
      constructor
      · intro hst
        cases hst
      · intro hdual
        rw [StreamSource.dualLeg, Option.isSome_iff_ne_none] at hdual
        exact absurd (hleg1 hdual.2.1) hdual.2.2
  | dual leg1 h0 h1 hlive hleg1 =>
      obtain ⟨ip, hip, rfl⟩ := Option.map_eq_some_iff.mp hleg1
      obtain ⟨huse, hip⟩ := Option.ite_none_right_eq_some.mp hip
      exact ⟨hname, hleg, hdest, ⟨fun _ => ⟨hlive, huse, by simp [hip]⟩, fun _ => rfl⟩,
        fun _ => hleg.sec source ip, fun _ => rfl⟩

theorem addSource_stored {host : Host} {env : Env} {source : StreamSource} {s s' : SessionManager}
    (h : s.addSource host env source = some (.ok, s')) :
    ∃ info, s'.sources.find? source.id = some info ∧
      StoredSource host env source s.driver.sampleRate info := by
  obtain ⟨prep, info, hprep, hstored, htable⟩ :=
    SessionManager.find?_of_serve_ok (SessionManager.addSource_books h) rfl
  refine ⟨info, (htable .source source.id).trans (if_pos ⟨rfl, rfl⟩), ?_⟩
  rcases SessionManager.prepared_cases hprep with
    ⟨env, source, stream, hr, -, hstream, rfl⟩ | ⟨env, sink, hr, -⟩
  · cases hr
    exact storedSource_of_stored hstream hstored
  · cases hr

theorem not_mem_cStr {c : Char} {t : Text} (h : c ∉ t) (size : ℕ) : c ∉ cStr size t := fun hc =>
  h ((List.takeWhile_sublist _).subset ((List.take_sublist _ _).subset hc))

/-- **A source comes back from its description** exactly when its packet time keeps
the packet size, no leg goes to the limited broadcast address, and the secondary
interface still has its address; doubles are taken as exact. -/
theorem sdp_round_trip {host : Host} (hexact : ∀ x, host.double x = x) (hsize : 9 < host.codecSize) (hnode : '\n' ∉ host.config.nodeId)
    {env env' : Env} {source : StreamSource} (hname : '\n' ∉ source.name)
    (hcodec : getCodecWordLength source.codec ≠ 0) (hn : source.maxSamplesPerPacket ≠ 0)
    {s s' : SessionManager} (hrate : s.driver.sampleRate ≠ 0)
    (h : s.addSource host env source = some (.ok, s')) (ptp : Ptp) (sink : StreamSink) :
    ∃ info, s'.sources.find? source.id = some info ∧
      (RoundTrips host ptp (getSourceSdp host env' ptp s'.driver.sampleRate info)
          (SessionManager.sinkInfo host sink) info ↔
        PacketTimeKept source.maxSamplesPerPacket.toNat s.driver.sampleRate.toNat ∧
          SessionManager.sourceDestIP host source ≠ Address.inaddrNone ∧
          (source.dualLeg host env →
            SessionManager.sourceDestIPSec host source ≠ Address.inaddrNone ∧
              (env'.secondaryIp host).isSome)) := by
  obtain ⟨info, hf, hinfo⟩ := addSource_stored h
  refine ⟨info, hf, ?_⟩
  have hs' : s'.driver.sampleRate = s.driver.sampleRate :=
    congrArg SessionManager.Outside.sampleRate (SessionManager.serve_outside (r := .addSource env source) h).1
  have hcStr : getCodecWordLength (cStr host.codecSize source.codec) ≠ 0 := by
    rwa [cStr_codec hsize hcodec]
  obtain ⟨time, htime, hkept⟩ := ptime_samples hexact hn hrate
  rw [← hinfo.leg0.ui32MaxSamplesPerPacket] at htime
  have hsome : (describedSecondary host env' info).isSome =
      (info.st20227Enabled && (env'.secondaryIp host).isSome) := by
    rw [describedSecondary]
    split <;> simp_all
  have hparse := parseSdp_getSourceSdp hnode env' ptp hrate
    (by rw [hinfo.name]; exact not_mem_cStr hname _) (by rwa [hinfo.leg0.cCodec])
    (fun hd => by
      rw [hsome, Bool.and_eq_true] at hd
      rwa [(hinfo.leg1 hd.1).cCodec]) htime (SessionManager.sinkInfo host sink)
  rw [hsome] at hparse
  rw [hs', ← hinfo.dest0, ← hinfo.dual, ← hkept]
  constructor
  · rintro ⟨parsed, hok, hst, hleg0, -⟩
    rw [hparse] at hok
    obtain ⟨hdest, hok⟩ := Parsed.ite_error_eq_ok.mp hok
    obtain rfl := Except.ok.inj hok
    rw [not_or] at hdest
    refine ⟨(sameLeg_readLeg hsize hcodec hinfo.leg0 _ _).mp hleg0, hdest.1, fun hdual => ?_⟩
    have hsec : (env'.secondaryIp host).isSome = true := by
      simpa [readInfo, SessionManager.sinkInfo, hdual] using hst
    exact ⟨fun hnone => hdest.2 ⟨by simp [hdual, hsec], (hinfo.dest1 hdual).trans hnone⟩, hsec⟩
  · rintro ⟨hsamples, hdest, hdual⟩
    refine ⟨_, hparse.trans (if_neg ?_), ?_, ?_, ?_⟩
    · rintro (hnone | ⟨hd, hnone⟩)
      · exact hdest hnone
      · rw [Bool.and_eq_true] at hd
        exact (hdual hd.1).1 ((hinfo.dest1 hd.1).symm.trans hnone)
    · cases hst : info.st20227Enabled
      · rfl
      · simp [readInfo, (hdual hst).2]
    · exact (sameLeg_readLeg hsize hcodec hinfo.leg0 _ _).mpr hsamples
    · intro hst
      simp only [readInfo, hst, (hdual hst).2, Bool.and_self, if_true]
      exact (sameLeg_readLeg hsize hcodec (hinfo.leg1 hst) _ _).mpr hsamples

theorem sdp_round_trip_stereo : ∃ s' info, (SessionManager.create {}).addSource { double := id }
      (.answering none (.ok 7) (.error (.driver 1))) (stereoSource 1 "a".toList) = some (.ok, s') ∧
    s'.sources.find? 1 = some info ∧
    RoundTrips { double := id } {} (getSourceSdp { double := id } {} {} s'.driver.sampleRate info)
      (SessionManager.sinkInfo { double := id } (stereoSink 1 "b".toList [])) info := by
  have hrun : ((SessionManager.create {}).addSource { double := id } (.answering none (.ok 7) (.error (.driver 1)))
      (stereoSource 1 "a".toList)).map Prod.fst = some .ok := by decide +kernel
  obtain ⟨⟨ret, s'⟩, h, rfl⟩ := Option.map_eq_some_iff.mp hrun
  have hrate : (SessionManager.create {}).driver.sampleRate ≠ 0 := by decide
  obtain ⟨info, hf, hiff⟩ := @sdp_round_trip { double := id } (fun _ => rfl) (by decide) (by decide) _ {} _ (by decide)
    (by decide) (by decide) _ s' hrate h {} (stereoSink 1 "b".toList [])
  exact ⟨s', info, h, hf, hiff.mpr (by decide +kernel)⟩

/-- A source of `n` samples at a rate is read back as one of `n'` samples. -/
def LostSamples (host : Host) (rate n n' : UInt32) : Prop :=
  n' ≠ n ∧ ∃ s' info parsed,
    ((SessionManager.create {}).setSampleRate rate).addSource host
      (.answering none (.ok 7) (.error (.driver 1)))
      { stereoSource 1 "a".toList with maxSamplesPerPacket := n } = some (.ok, s') ∧
    s'.sources.find? 1 = some info ∧
    parseSdp host s'.ptp (getSourceSdp host {} s'.ptp s'.driver.sampleRate info)
      (SessionManager.sinkInfo host (stereoSink 1 "b".toList [])) = .ok parsed ∧
    info.stream.leg0.ui32MaxSamplesPerPacket = n ∧
    parsed.stream.leg0.ui32MaxSamplesPerPacket = n' ∧
    ¬ RoundTrips host s'.ptp (getSourceSdp host {} s'.ptp s'.driver.sampleRate info)
      (SessionManager.sinkInfo host (stereoSink 1 "b".toList [])) info

theorem lostSamples_of_run {host : Host} {rate n n' : UInt32} (hne : n' ≠ n)
    (hrun : (((SessionManager.create {}).setSampleRate rate).addSource host (.answering none (.ok 7) (.error (.driver 1)))
      { stereoSource 1 "a".toList with maxSamplesPerPacket := n }).bind (fun r =>
        (r.2.sources.find? 1).bind fun info =>
          (parseSdp host r.2.ptp (getSourceSdp host {} r.2.ptp r.2.driver.sampleRate info)
            (SessionManager.sinkInfo host (stereoSink 1 "b".toList []))).toOption.map fun parsed =>
            (r.1, info.stream.leg0.ui32MaxSamplesPerPacket,
              parsed.stream.leg0.ui32MaxSamplesPerPacket)) = some (.ok, n, n')) :
    LostSamples host rate n n' := by
  simp only [Option.bind_eq_some_iff, Option.map_eq_some_iff, Prod.mk.injEq] at hrun
  obtain ⟨⟨ret, s'⟩, hadd, info, hf, parsed, hparse, rfl, hn, hn'⟩ := hrun
  have hparse := Parsed.toOption_eq_some.mp hparse
  refine ⟨hne, s', info, parsed, hadd, hf, hparse, hn, hn', ?_⟩
  rintro ⟨read, hread, -, hleg0, -⟩
  rw [hparse] at hread
  obtain rfl := Except.ok.inj hread
  exact hne (hn'.symm.trans (hleg0.ui32MaxSamplesPerPacket.trans hn))

/-- Twelve samples at 44.1 kHz come back as eleven, ten milliseconds as one, where doubles are exact
and where they are rounded. -/
theorem sdp_round_trip_lost : (LostSamples { double := id } 44100 12 11 ∧ LostSamples { double := id } 48000 480 48) ∧
    LostSamples {} 44100 12 11 ∧ LostSamples {} 48000 480 48 := by
  refine ⟨⟨lostSamples_of_run (by decide) ?_, lostSamples_of_run (by decide) ?_⟩,
    lostSamples_of_run (by decide) ?_, lostSamples_of_run (by decide) ?_⟩
  · decide +kernel
  · decide +kernel
  · decide +kernel
  · decide +kernel

end Aes67Daemon
