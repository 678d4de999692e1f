import Aes67Daemon.Rtsp.ByName
import Aes67Daemon.Rtsp.Updates

/-!
# What a client reads

`RtspClient::process` reads one stream: the answer to its `DESCRIBE`, and then, if it
waits for updates, requests.  Lines are read with `getline`; a body of the announced
length is copied from the stream buffer by `copy_n`, which leaves the last byte of it
unread, so that the line break a description ends with is read again, as an empty line.

The stream is what the other side sends before the connection ends.

## Main definitions

* `RtspClient.readResponse` — `read_response`, with what is left of the stream.
* `RtspClient.process` — `process`: what it calls back with and replies.
* `process_records` — what a session has sent is what a client is told.
-/
namespace Aes67Daemon

open Text

namespace RtspClient

/-- `max_body_length`. -/
def maxBodyLength : ℕ := 4096

/-- `RtspResponse`. -/
structure RtspReply extends RtspResponse where
  cseq : ℤ := -1
  contentLength : ℕ := 0

/-- One header of a response; `none` is a number that cannot be read. -/
def onHeader (res : RtspReply) (header : Text) : Option RtspReply :=
  let header := trim (toLower header)
  if "cseq:".toList <+: header then (stoi (header.drop 5)).map fun n => { res with cseq := n }
  else if "content-type:".toList <+: header then
    some { res with contentType := trim (header.drop 13) }
  else if "content-length:".toList <+: header then
    -- a negative length becomes a large one
    (stoi (header.drop 15)).map fun n => { res with contentLength := (UInt64.ofInt n).toNat }
  else some res

/-- The loop over the headers, with the bytes it has read. -/
def readHeaders (res : RtspReply) (consumed : ℕ) : List Text → RtspReply × ℕ
  | [] => (res, consumed)
  | header :: rest =>
    let consumed := consumed + header.length + 1
    if header = [] ∨ header = ['\r'] then (res, consumed)
    else
      match onHeader res header with
      | none => (res, consumed)
      | some res => readHeaders res consumed rest

/-- `read_response`, and what is left of the stream.  Past the end of the stream a body
has the character of `eof`. -/
def readResponse (s : Text) : RtspReply × Text :=
  let (res, consumed) := readHeaders {} 0 (getLines s)
  let s := s.drop consumed
  let n := res.contentLength
  if 0 < n ∧ n < maxBodyLength then
    ({ res with body := s.take n ++ List.replicate (n - s.length) 'ÿ' }, s.drop (n - 1))
  else (res, s)

/-- What `process` is called with. -/
structure Target where
  name : Text
  domain : Text
  path : Text
  dstAddress : Text
  waitForUpdates : Bool := true

/-- What `process` does besides reading. -/
inductive ClientAct
  /-- The callback. -/
  | told (name domain : Text) (source : RtspSource)
  | replied (statusCode : ℕ) (description : Text) (cseq : ℤ)
  deriving DecidableEq

/-- What a reply is on the wire. -/
def ClientAct.toText : ClientAct → Text
  | .told _ _ _ => []
  | .replied statusCode description cseq =>
    "RTSP/1.0 ".toList ++ ofNat statusCode ++ ' ' :: description ++ crlf ++
      "CSeq: ".toList ++ (if cseq < 0 then '-' :: ofNat (-cseq).toNat else ofNat cseq.toNat) ++ crlf ++ crlf

/-- What `process` returns, and what it has done. -/
structure Processed where
  ok : Bool
  source : RtspSource := ⟨[], [], [], []⟩
  acts : List ClientAct := []
  deriving DecidableEq

/-- What is done with a description. -/
def respond (t : Target) (isDescribe isAnnounce : Bool) (announcedName : Text) (res : RtspReply) :
    List ClientAct :=
  let reply : List ClientAct :=
    if isAnnounce then [.replied 200 "OK".toList res.cseq]
    else if isDescribe then []
    else [.replied 405 "Method Not Allowed".toList res.cseq]
  let announcedName :=
    if isAnnounce ∧ announcedName = [] then sdpGetSubject res.body else announcedName
  reply ++
    if isAnnounce || isDescribe then
      [.told (if announcedName = [] then t.name else announcedName) t.domain
        (rtspSource t.dstAddress res.body)]
    else []

/-- The next line that is not empty, with what follows it; `none` when the stream has
ended. -/
def nextRequest (s : Text) : Option (Text × Text) := breakAt '\n' (s.dropWhile (· = '\n'))

/-- The loop of `process`, until the client has been stopped after `n` rounds. -/
def rounds (decodeUrl : Text → Text) (t : Target) (cseq : UInt16) :
    ℕ → Bool → Bool → Text → RtspSource → Text → Processed
  | 0, _, _, _, source, _ => { ok := true, source }
  | n + 1, isDescribe, isAnnounce, announcedName, source, s =>
    let (res, s) := readResponse s
    let unsupported := res.contentType ≠ [] ∧ ¬ sdpType <+: res.contentType
    if isDescribe ∧ (res.cseq ≠ cseq.toNat ∨ unsupported) then { ok := false, source }
    else
      let source := if unsupported then source else rtspSource t.dstAddress res.body
      let acts := if unsupported then [] else respond t isDescribe isAnnounce announcedName res
      if t.waitForUpdates then
        match nextRequest s with
        | none => { ok := true, source, acts }
        | some (line, s) =>
          match onRequest decodeUrl t.path line with
          | none => { ok := true, source, acts }
          | some (isAnnounce, announcedName) =>
            let p := rounds decodeUrl t cseq n false isAnnounce announcedName source s
            { p with acts := acts ++ p.acts }
      else { ok := true, source, acts }

/-- `s >> status_code`. -/
def extractUnsigned (s : Text) : Option (ℕ × Text) :=
  let (neg, s) := sign (trimLeft s)
  let ds := s.takeWhile Char.isDigit
  let n := digitsValue ds
  if ds = [] ∨ 2 ^ 32 ≤ n then none
  else some (if neg then (2 ^ 32 - n) % 2 ^ 32 else n, s.drop ds.length)

/-- The version and the status code of the first line, and what follows it. -/
def readStatus (s : Text) : Option (Text × ℕ × Text) :=
  let version := (trimLeft s).takeWhile (!isSpace ·)
  if version = [] then none
  else
    (extractUnsigned ((trimLeft s).dropWhile (!isSpace ·))).bind fun (statusCode, s) =>
      (breakAt '\n' s).map fun r => (version, statusCode, r.2)

/-- `process`, once it is connected and has sent its request. -/
def process (decodeUrl : Text → Text) (t : Target) (cseq : UInt16) (n : ℕ) (s : Text) : Processed :=
  match readStatus s with
  | none => { ok := false }
  | some (version, statusCode, s) =>
    if version.take 5 ≠ "RTSP/".toList ∨ statusCode ≠ 200 then { ok := false }
    else rounds decodeUrl t cseq n true false [] ⟨[], [], [], []⟩ s

/-! ## Headers -/

section headers

variable {res res' : RtspReply} {n : ℕ}

/-- A header with a number. -/
theorem trim_toLower_number {c : Char} (hc : isSpace c.toLower = false) (w : Text) (n : ℕ) :
    trim (toLower (c :: w ++ ofNat n ++ ['\r'])) = toLower (c :: w) ++ ofNat n := by
  have hlower : toLower (c :: w ++ ofNat n ++ ['\r']) = toLower (c :: w) ++ ofNat n ++ ['\r'] := by
    rw [toLower, List.map_append, List.map_append, ← toLower, ← toLower, toLower_ofNat]
    rfl
  rw [hlower]
  exact trim_append_spaces (c := c.toLower) (t := toLower w ++ ofNat n) hc
    ((noSpaceLast_ofNat n).append (toLower (c :: w))) (by simp [isSpace])

theorem stoi_blank {n : ℕ} (hn : n ≤ 2147483647) : stoi (' ' :: ofNat n) = some (n : ℤ) := by
  have hskip : stoi (' ' :: ofNat n) = stoi (ofNat n) := rfl
  rw [hskip, stoi_ofNat hn]

theorem onHeader_cseq (hn : n ≤ 2147483647) :
    onHeader res ("CSeq: ".toList ++ ofNat n ++ ['\r']) = some { res with cseq := n } := by
  have htrim : trim (toLower ("CSeq: ".toList ++ ofNat n ++ ['\r'])) = "cseq:".toList ++ ' ' :: ofNat n :=
    trim_toLower_number (c := 'C') rfl "Seq: ".toList n
  have hdrop : ("cseq:".toList ++ ' ' :: ofNat n).drop 5 = ' ' :: ofNat n := rfl
  rw [onHeader, htrim, if_pos (List.prefix_append _ _), hdrop, stoi_blank hn]
  rfl

theorem onHeader_length (hn : n ≤ 2147483647) :
    onHeader res ("Content-Length: ".toList ++ ofNat n ++ ['\r']) = some { res with contentLength := n } := by
  have htrim : trim (toLower ("Content-Length: ".toList ++ ofNat n ++ ['\r'])) =
      "content-length:".toList ++ ' ' :: ofNat n :=
    trim_toLower_number (c := 'C') rfl "ontent-Length: ".toList n
  have hdrop : ("content-length:".toList ++ ' ' :: ofNat n).drop 15 = ' ' :: ofNat n := rfl
  have hword : (UInt64.ofInt (n : ℤ)).toNat = n := by
    rw [UInt64.ofInt, UInt64.toNat_ofNat']
    omega
  rw [onHeader, htrim, if_neg (by simp), if_neg (by simp), if_pos (List.prefix_append _ _), hdrop,
    stoi_blank hn, Option.map_some, hword]

theorem onHeader_type : onHeader res "Content-Type: application/sdp\r".toList =
    some { res with contentType := sdpType } := by
  have htrim : trim (toLower "Content-Type: application/sdp\r".toList) =
      "content-type: application/sdp".toList := by decide
  rw [onHeader, htrim, if_neg (by decide), if_pos (by decide)]
  congr 2

theorem onHeader_other {header : Text} (hcseq : ¬ "cseq:".toList <+: trim (toLower header))
    (htype : ¬ "content-type:".toList <+: trim (toLower header))
    (hlength : ¬ "content-length:".toList <+: trim (toLower header)) : onHeader res header = some res := by
  rw [onHeader, if_neg hcseq, if_neg htype, if_neg hlength]

/-- Headers with their end. -/
theorem readHeaders_unlines {hs : List Text} (hfold : hs.foldlM onHeader res = some res')
    (hlines : ∀ l ∈ hs, '\n' ∉ l ∧ l ≠ [] ∧ l ≠ ['\r']) (consumed : ℕ) (rest : Text) :
    readHeaders res consumed (getLines (unlines hs ++ (crlf ++ rest))) =
      (res', consumed + (unlines hs).length + 2) := by
  induction hs generalizing res consumed with
  | nil =>
      obtain rfl : res = res' := Option.some.inj hfold
      have hcr : getLines (unlines [] ++ (crlf ++ rest)) = ['\r'] :: getLines rest :=
        getLines_line_append (l := ['\r']) (by decide)
      rw [hcr, readHeaders, if_pos (.inr rfl)]
      rfl
  | cons l hs ih =>
      obtain ⟨⟨hl, hne, hcr⟩, hlines⟩ := List.forall_mem_cons.mp hlines
      rw [List.foldlM_cons] at hfold
      obtain ⟨res₁, hone, hfold⟩ := Option.bind_eq_some_iff.mp hfold
      have hsplit : unlines (l :: hs) ++ (crlf ++ rest) = l ++ '\n' :: (unlines hs ++ (crlf ++ rest)) := by
        simp [unlines_cons]
      rw [hsplit, getLines_line_append hl, readHeaders, if_neg (not_or.mpr ⟨hne, hcr⟩), hone]
      dsimp only
      rw [ih hfold hlines, unlines_cons]
      simp only [List.length_append, List.length_cons]
      congr 1
      omega

/-- A description that a client can read: not too long, with a line break at its end. -/
structure Readable (sdp : Text) : Prop where
  short : sdp.length < maxBodyLength
  ends : sdp.getLast? = some '\n'

/-- A response with a description: the last byte of the description is left. -/
theorem readResponse_body {hs : List Text} {sdp : Text} (hfold : hs.foldlM onHeader {} = some res')
    (hlines : ∀ l ∈ hs, '\n' ∉ l ∧ l ≠ [] ∧ l ≠ ['\r']) (hlength : res'.contentLength = sdp.length)
    (hsdp : Readable sdp) (rest : Text) :
    readResponse (unlines hs ++ (crlf ++ (sdp ++ rest))) =
      ({ res' with body := sdp }, '\n' :: rest) := by
  obtain ⟨u, rfl⟩ := List.getLast?_eq_some_iff.mp hsdp.ends
  have hdrop : (unlines hs ++ (crlf ++ ((u ++ ['\n']) ++ rest))).drop ((unlines hs).length + 2) =
      (u ++ ['\n']) ++ rest := by
    rw [← List.append_assoc]
    exact List.drop_left' (by simp [crlf])
  have hpos : 0 < (u ++ ['\n']).length ∧ (u ++ ['\n']).length < maxBodyLength := ⟨by simp, hsdp.short⟩
  have htake : ((u ++ ['\n']) ++ rest).take (u ++ ['\n']).length = u ++ ['\n'] := List.take_left
  have hlast : ((u ++ ['\n']) ++ rest).drop ((u ++ ['\n']).length - 1) = '\n' :: rest := by
    rw [List.append_assoc]
    exact List.drop_left' (by simp)
  simp only [readResponse, readHeaders_unlines hfold hlines, Nat.zero_add, hdrop, hlength, if_pos hpos,
    htake, hlast]
  simp

end headers

/-! ## The records of a session -/

/-- The address and the port in the URLs of a server. -/
def endpointOf (h : RtspHost) : RtspEndpoint where
  host := h.config.ipAddrStr
  port := ofNat h.rtspPort.toNat
  host_ne_nil := List.append_ne_nil_of_right_ne_nil _ (List.cons_ne_nil _ _)
  host_head := fun hcolon => by
    have hmem : ':' ∈ h.config.ipAddrStr := List.mem_of_head? hcolon
    exact Address.not_mem_toText (by decide) (by decide) h.config.ipAddr hmem
  plain := by
    have hdigit : ∀ c : Char, c.isDigit = true → isHostChar c = true := by
      intro c hc
      have hne : ∀ d : Char, d.isDigit = false → c ≠ d := by
        rintro d hd rfl
        rw [hc] at hd
        cases hd
      simp [isHostChar, isSpace_of_isDigit hc, hne '/' rfl, hne '%' rfl, hne '\x00' rfl]
    refine List.all_eq_true.mpr fun c hc => ?_
    rcases List.mem_append.mp hc with hc | hc
    · by_cases hdot : c = '.'
      · rw [hdot]
        rfl
      · refine hdigit c ?_
        by_contra hno
        exact Address.not_mem_toText (Bool.eq_false_iff.mpr hno) hdot h.config.ipAddr hc
    · rcases List.mem_cons.mp hc with rfl | hc
      · rfl
      · exact hdigit c (digits_isDigit hc)

section records

variable {h : RtspHost} {e : RtspEndpoint} {nodeId name sdp : Text} {cseq : ℕ}

/-- The headers of a response with a description, or of an announcement. -/
def bodyHeaders (cseq : ℕ) (sdp : Text) : List Text :=
  ["CSeq: ".toList ++ ofNat cseq ++ ['\r'], "Content-Length: ".toList ++ ofNat sdp.length ++ ['\r'],
    "Content-Type: application/sdp\r".toList]

def announceHeaders (cseq : ℕ) (sdp : Text) : List Text :=
  "User-Agent: aes67-daemon\r".toList :: "connection: Keep-Alive\r".toList :: bodyHeaders cseq sdp

/-- The first line of an announcement. -/
def announceLine (e : RtspEndpoint) (path : Text) : Text :=
  "ANNOUNCE".toList ++ ' ' :: (describeUrl e path ++ ' ' :: "RTSP/1.0".toList) ++ ['\r']

theorem toText_described (request : Text) (cseq : ℕ) (id : UInt8) (sdp : Text) :
    (RtspRecord.answered request cseq (.described id sdp)).toText h =
      "RTSP/1.0 200 OK\r".toList ++ '\n' :: (unlines (bodyHeaders cseq sdp) ++ (crlf ++ sdp)) := by
  have hline : "RTSP/1.0 200 OK\r".toList = "RTSP/1.0 200 OK".toList ++ ['\r'] := by decide
  have htype : "Content-Type: application/sdp\r".toList = "Content-Type: application/sdp".toList ++ ['\r'] := by
    decide
  have htext : (RtspRecord.answered request cseq (.described id sdp)).toText h =
      "RTSP/1.0 200 OK".toList ++ crlf ++ "CSeq: ".toList ++ ofNat cseq ++ crlf ++
        "Content-Length: ".toList ++ ofNat sdp.length ++ crlf ++
        "Content-Type: application/sdp".toList ++ crlf ++ crlf ++ sdp := rfl
  unfold bodyHeaders
  rw [htext, hline, htype]
  have hshape : ∀ w₁ w₂ n w₃ m w₄ : Text, w₁ ++ crlf ++ w₂ ++ n ++ crlf ++ w₃ ++ m ++ crlf ++ w₄ ++ crlf ++ crlf ++ sdp =
      w₁ ++ ['\r'] ++ '\n' :: (unlines [w₂ ++ n ++ ['\r'], w₃ ++ m ++ ['\r'], w₄ ++ ['\r']] ++ (crlf ++ sdp)) := by
    simp [unlines, crlf]
  exact hshape _ _ _ _ _ _

theorem toText_announced (henc : ∀ t, h.encodeUrl t = percentEncode isEncoded t) (cseq : ℕ) (id : UInt8)
    (name sdp : Text) :
    (RtspRecord.announced cseq id name sdp).toText h =
      announceLine (endpointOf h) (byNamePath h.config.nodeId name) ++
        '\n' :: (unlines (announceHeaders cseq sdp) ++ (crlf ++ sdp)) := by
  have hfirst : "ANNOUNCE rtsp://".toList = "ANNOUNCE".toList ++ ' ' :: "rtsp://".toList := by decide
  have hversion : " RTSP/1.0".toList = ' ' :: "RTSP/1.0".toList := by decide
  have hagent : "User-Agent: aes67-daemon\r".toList = "User-Agent: aes67-daemon".toList ++ ['\r'] := by decide
  have hkeep : "connection: Keep-Alive\r".toList = "connection: Keep-Alive".toList ++ ['\r'] := by decide
  have htype : "Content-Type: application/sdp\r".toList = "Content-Type: application/sdp".toList ++ ['\r'] := by
    decide
  have htext : (RtspRecord.announced cseq id name sdp).toText h =
      "ANNOUNCE rtsp://".toList ++ h.config.ipAddrStr ++ ':' :: ofNat h.rtspPort.toNat ++
        h.encodeUrl ("/by-name/".toList ++ h.config.nodeId ++ ' ' :: name) ++ " RTSP/1.0".toList ++ crlf ++
        "User-Agent: aes67-daemon".toList ++ crlf ++ "connection: Keep-Alive".toList ++ crlf ++
        "CSeq: ".toList ++ ofNat cseq ++ crlf ++ "Content-Length: ".toList ++ ofNat sdp.length ++ crlf ++
        "Content-Type: application/sdp".toList ++ crlf ++ crlf ++ sdp := rfl
  unfold announceLine describeUrl announceHeaders bodyHeaders byNamePath
  rw [htext, hfirst, hversion, hagent, hkeep, htype, henc]
  have hshape : ∀ w w₀ a b c w₁ w₂ w₃ w₄ n w₅ m w₆ : Text,
      w ++ ' ' :: w₀ ++ a ++ ':' :: b ++ c ++ ' ' :: w₁ ++ crlf ++ w₂ ++ crlf ++ w₃ ++ crlf ++ w₄ ++ n ++ crlf ++
          w₅ ++ m ++ crlf ++ w₆ ++ crlf ++ crlf ++ sdp =
        w ++ ' ' :: (w₀ ++ (a ++ ':' :: b) ++ c ++ ' ' :: w₁) ++ ['\r'] ++
          '\n' :: (unlines [w₂ ++ ['\r'], w₃ ++ ['\r'], w₄ ++ n ++ ['\r'], w₅ ++ m ++ ['\r'], w₆ ++ ['\r']] ++
            (crlf ++ sdp)) := by
    simp [unlines, crlf]
  exact hshape _ _ _ _ _ _ _ _ _ _ _ _ _

theorem foldlM_bodyHeaders (hcseq : cseq ≤ 2147483647) (hsdp : Readable sdp) :
    (bodyHeaders cseq sdp).foldlM onHeader {} =
      some { cseq := cseq, contentType := sdpType, contentLength := sdp.length } := by
  have hshort : sdp.length ≤ 2147483647 := hsdp.short.le.trans (by decide)
  unfold bodyHeaders
  rw [List.foldlM_cons, onHeader_cseq hcseq]
  change List.foldlM onHeader _ _ = _
  rw [List.foldlM_cons, onHeader_length hshort]
  change List.foldlM onHeader _ _ = _
  rw [List.foldlM_cons, onHeader_type]
  rfl

theorem bodyHeaders_lines : ∀ l ∈ bodyHeaders cseq sdp, '\n' ∉ l ∧ l ≠ [] ∧ l ≠ ['\r'] := by
  have hnumber : ∀ (w : Text) (n : ℕ), '\n' ∉ w → w ≠ [] → '\n' ∉ w ++ ofNat n ++ ['\r'] ∧
      w ++ ofNat n ++ ['\r'] ≠ [] ∧ w ++ ofNat n ++ ['\r'] ≠ ['\r'] := by
    intro w n hw hne
    refine ⟨List.not_mem_append (List.not_mem_append hw (not_mem_ofNat rfl n)) (by decide), by simp, ?_⟩
    intro heq
    have := List.append_cancel_right (heq.trans (List.nil_append ['\r']).symm)
    exact hne (List.append_eq_nil_iff.mp this).1
  unfold bodyHeaders
  simp only [List.forall_mem_cons, List.not_mem_nil, false_implies, implies_true, and_true]
  exact ⟨hnumber _ _ (by decide) (by decide), hnumber _ _ (by decide) (by decide), by decide, by decide, by decide⟩

/-- What `read_response` finds after the first line. -/
theorem readResponse_bodyHeaders (hcseq : cseq ≤ 2147483647) (hsdp : Readable sdp) (rest : Text) :
    readResponse (unlines (bodyHeaders cseq sdp) ++ (crlf ++ (sdp ++ rest))) =
      ({ cseq := cseq, contentType := sdpType, contentLength := sdp.length, body := sdp }, '\n' :: rest) :=
  readResponse_body (foldlM_bodyHeaders hcseq hsdp) bodyHeaders_lines rfl hsdp rest

theorem readResponse_announceHeaders (hcseq : cseq ≤ 2147483647) (hsdp : Readable sdp) (rest : Text) :
    readResponse (unlines (announceHeaders cseq sdp) ++ (crlf ++ (sdp ++ rest))) =
      ({ cseq := cseq, contentType := sdpType, contentLength := sdp.length, body := sdp }, '\n' :: rest) := by
  have hfold : (announceHeaders cseq sdp).foldlM onHeader {} =
      some { cseq := cseq, contentType := sdpType, contentLength := sdp.length } := by
    unfold announceHeaders
    rw [List.foldlM_cons, onHeader_other (by decide) (by decide) (by decide)]
    change List.foldlM onHeader _ _ = _
    rw [List.foldlM_cons, onHeader_other (by decide) (by decide) (by decide)]
    exact foldlM_bodyHeaders hcseq hsdp
  exact readResponse_body hfold
    (List.forall_mem_cons.mpr ⟨by decide, List.forall_mem_cons.mpr ⟨by decide, bodyHeaders_lines⟩⟩) rfl hsdp rest

theorem percentDecode_ne_nil {c : Char} {t : Text} : percentDecode (c :: t) ≠ [] := by
  by_cases hc : c = '%'
  · subst hc
    rw [percentDecode_percent]
    split <;> simp
  · simp [percentDecode_cons_of_ne hc]

/-- The URL of an announcement, decoded, is taken apart. -/
theorem parseUrl_announced (hpath : (byNamePath nodeId name).all isDesired = true) :
    ∃ u, parseUrl (percentDecode (describeUrl e (byNamePath nodeId name))) = some u ∧ u.ok = true ∧
      u.path = byNamePrefix ++ percentDecode (nodeId ++ ' ' :: name) := by
  have hhost : '%' ∉ "rtsp://".toList ++ (e.host ++ ':' :: e.port) := by
    refine List.not_mem_append (by decide) fun hmem => ?_
    exact absurd (List.all_eq_true.mp e.plain '%' hmem) (by decide)
  have hdecoded : percentDecode (byNamePath nodeId name) =
      "/by-name/".toList ++ percentDecode (nodeId ++ ' ' :: name) := by
    unfold byNamePath
    rw [List.append_assoc]
    exact percentDecode_append (by decide)
  have hslash : "/by-name/".toList = '/' :: "by-name/".toList := by decide
  unfold describeUrl byNamePrefix
  rw [percentDecode_append hhost,
    percentDecode_percentEncode isEncoded_percent isEncoded_hex (isEncoded_byte hpath), hdecoded, hslash]
  exact parseUrl_decoded e _

/-- The name in the URL of an announcement. -/
theorem onRequest_announceLine {decodeUrl : Text → Text} (hdec : ∀ t, decodeUrl t = percentDecode t)
    (hpath : (byNamePath nodeId name).all isDesired = true) {path : Text} (hby : byNamePrefix <:+: path) :
    onRequest decodeUrl path (announceLine e (byNamePath nodeId name)) =
      some (true, percentDecode (nodeId ++ ' ' :: name)) := by
  have hfields : announceUrl? (announceLine e (byNamePath nodeId name)) =
      some (describeUrl e (byNamePath nodeId name)) := by
    have hwords : splitBy (· = ' ') (trim (announceLine e (byNamePath nodeId name))) =
        ["ANNOUNCE".toList, describeUrl e (byNamePath nodeId name), "RTSP/1.0".toList] :=
      requestFields_words (c := 'A') (a := "NNOUNCE".toList) rfl (by decide)
        (notMem_describeUrl hpath (.inl rfl)) (by decide) ⟨'0', rfl, rfl⟩
    rw [announceUrl?, hwords]
    exact if_pos rfl
  obtain ⟨u, hu, hok, hupath⟩ := parseUrl_announced (e := e) hpath
  rw [onRequest_announce hfields (hdec _ ▸ hu), if_pos ⟨hok, hby⟩, hupath]
  have hnine : byNamePrefix.length = 9 := by decide
  rw [if_neg (by rw [List.length_append]; omega), ← hnine, List.drop_left]

theorem nextRequest_line {l rest : Text} (hne : l ≠ []) (hl : '\n' ∉ l) :
    nextRequest ('\n' :: (l ++ '\n' :: rest)) = some (l, rest) := by
  obtain ⟨c, l, rfl⟩ := List.exists_cons_of_ne_nil hne
  have hc : c ≠ '\n' := fun h => hl (h ▸ List.mem_cons_self)
  have hskip : ('\n' :: (c :: l ++ '\n' :: rest)).dropWhile (· = '\n') = c :: l ++ '\n' :: rest := by
    simp [hc]
  rw [nextRequest, hskip, breakAt_append hl]

theorem announceLine_ne_nil {path : Text} : announceLine e path ≠ [] :=
  List.append_ne_nil_of_right_ne_nil _ (List.cons_ne_nil _ _)

theorem notMem_announceLine {path : Text} (hpath : path.all isDesired = true) :
    '\n' ∉ announceLine e path := by
  have hurl := notMem_describeUrl (e := e) hpath (.inr (.inl rfl))
  exact List.not_mem_append
    (List.not_mem_append (by decide) (List.not_mem_cons_of_ne_of_not_mem (by decide)
      (List.not_mem_append hurl (List.not_mem_cons_of_ne_of_not_mem (by decide) (by decide))))) (by decide)

end records

/-! ## The stream of a session -/

section stream

variable {h : RtspHost} {t : Target} {cseq : UInt16}

/-- What a client makes of a record. -/
def toldOf (h : RtspHost) (t : Target) : RtspRecord → List ClientAct
  | .announced cseq _ name sdp =>
    [.replied 200 "OK".toList cseq,
      .told (percentDecode (h.config.nodeId ++ ' ' :: name)) t.domain (rtspSource t.dstAddress sdp)]
  | _ => []

/-- A record that a client which has asked once can read. -/
def Sent (h : RtspHost) : RtspRecord → Prop
  | .answered _ _ a => a = .skipped
  | .updated _ _ => True
  | .announced cseq _ name sdp =>
    cseq ≤ 2147483647 ∧ (byNamePath h.config.nodeId name).all isDesired = true ∧ Readable sdp

/-- The description a client has after some records. -/
def lastSource (t : Target) (source : RtspSource) (rs : List RtspRecord) : RtspSource :=
  rs.foldl (fun source r =>
    match r with
    | .announced _ _ _ sdp => rtspSource t.dstAddress sdp
    | _ => source) source

/-- A round that finds a description. -/
theorem rounds_succ {decodeUrl : Text → Text} (hwait : t.waitForUpdates = true) {n : ℕ}
    {isDescribe isAnnounce : Bool} {announcedName : Text} {source : RtspSource} {s rest : Text} {res : RtspReply}
    (hres : readResponse s = (res, rest)) (hcseq : isDescribe = true → res.cseq = cseq.toNat)
    (htype : res.contentType = sdpType) :
    rounds decodeUrl t cseq (n + 1) isDescribe isAnnounce announcedName source s =
      match nextRequest rest with
      | none =>
        { ok := true
          source := rtspSource t.dstAddress res.body
          acts := respond t isDescribe isAnnounce announcedName res }
      | some (line, s) =>
        match onRequest decodeUrl t.path line with
        | none =>
          { ok := true
            source := rtspSource t.dstAddress res.body
            acts := respond t isDescribe isAnnounce announcedName res }
        | some (isAnnounce', announcedName') =>
          let p := rounds decodeUrl t cseq n false isAnnounce' announcedName' (rtspSource t.dstAddress res.body) s
          { p with acts := respond t isDescribe isAnnounce announcedName res ++ p.acts } := by
  have hsupported : ¬ (res.contentType ≠ [] ∧ ¬ sdpType <+: res.contentType) := by
    rw [htype]
    exact fun hno => hno.2 List.prefix_rfl
  have hgoes : ¬ (isDescribe = true ∧
      (res.cseq ≠ cseq.toNat ∨ res.contentType ≠ [] ∧ ¬ sdpType <+: res.contentType)) :=
    fun hno => hno.2.elim (fun hne => hne (hcseq hno.1)) hsupported
  simp only [rounds, hres, if_neg hgoes, if_neg hsupported, if_pos hwait]

/-- What is announced is told, and replied to. -/
theorem respond_announced (name : Text) (hname : name ≠ []) (res : RtspReply) :
    respond t false true name res =
      [.replied 200 "OK".toList res.cseq, .told name t.domain (rtspSource t.dstAddress res.body)] := by
  simp [respond, hname]

/-- **What follows a round**, with the rest of the records still in the stream. -/
theorem rounds_records (henc : ∀ t, h.encodeUrl t = percentEncode isEncoded t) (hdec : ∀ t, h.decodeUrl t = percentDecode t)
    (hby : byNamePrefix <:+: t.path) (hwait : t.waitForUpdates = true) {rs : List RtspRecord}
    (hsent : ∀ r ∈ rs, Sent h r) {n : ℕ} (hn : rs.length < n) {isDescribe isAnnounce : Bool}
    {announcedName : Text} {source : RtspSource} {s : Text} {res : RtspReply}
    (hres : readResponse s = (res, '\n' :: rs.flatMap (·.toText h)))
    (hcseq : isDescribe = true → res.cseq = cseq.toNat) (htype : res.contentType = sdpType) :
    rounds h.decodeUrl t cseq n isDescribe isAnnounce announcedName source s =
      { ok := true
        source := lastSource t (rtspSource t.dstAddress res.body) rs
        acts := respond t isDescribe isAnnounce announcedName res ++ rs.flatMap (toldOf h t) } := by
  induction rs generalizing n isDescribe isAnnounce announcedName source s res with
  | nil =>
      obtain ⟨n, rfl⟩ : ∃ m, n = m + 1 := ⟨n - 1, by omega⟩
      have hend : nextRequest ('\n' :: ([] : List RtspRecord).flatMap (·.toText h)) = none := rfl
      rw [rounds_succ hwait hres hcseq htype, hend]
      simp [lastSource]
  | cons r rs ih =>
      obtain ⟨hr, hrs⟩ := List.forall_mem_cons.mp hsent
      have hn' : rs.length < n := Nat.lt_of_succ_lt hn
      cases r with
      | answered request cseq' a =>
          obtain rfl : a = .skipped := hr
          exact ih hrs hn' hres hcseq htype
      | updated id sdp => exact ih hrs hn' hres hcseq htype
      | announced cseq' id name sdp =>
          obtain ⟨n, rfl⟩ : ∃ m, n = m + 1 := ⟨n - 1, by omega⟩
          obtain ⟨hnumber, hpath, hsdp⟩ := hr
          have hstream : (RtspRecord.announced cseq' id name sdp :: rs).flatMap (·.toText h) =
              announceLine (endpointOf h) (byNamePath h.config.nodeId name) ++ '\n' ::
                (unlines (announceHeaders cseq' sdp) ++ (crlf ++ (sdp ++ rs.flatMap (·.toText h)))) := by
            rw [List.flatMap_cons, toText_announced henc]
            simp only [List.append_assoc, List.cons_append]
          have hnext := readResponse_announceHeaders hnumber hsdp (rs.flatMap (·.toText h))
          have hname : percentDecode (h.config.nodeId ++ ' ' :: name) ≠ [] := by
            cases h.config.nodeId with
            | nil => exact percentDecode_ne_nil
            | cons c u => exact percentDecode_ne_nil
          rw [hstream] at hres
          rw [rounds_succ hwait hres hcseq htype, nextRequest_line announceLine_ne_nil (notMem_announceLine hpath)]
          dsimp only
          rw [onRequest_announceLine hdec hpath hby]
          dsimp only
          rw [ih hrs (Nat.lt_of_succ_lt_succ hn) hnext (fun hno => absurd hno Bool.false_ne_true) rfl,
            respond_announced _ hname]
          simp [lastSource, toldOf]

/-- The first line of an answer. -/
theorem readStatus_ok (s : Text) :
    readStatus ("RTSP/1.0 200 OK\r".toList ++ '\n' :: s) = some ("RTSP/1.0".toList, 200, s) := by
  have hline : "RTSP/1.0 200 OK\r".toList = "RTSP/1.0".toList ++ ' ' :: '2' :: '0' :: '0' :: ' ' :: "OK\r".toList := by
    decide
  have hversion : ∀ c ∈ "RTSP/1.0".toList, (!isSpace c) = true := List.all_eq_true.mp (by decide)
  have htrim : ∀ u : Text, trimLeft ("RTSP/1.0".toList ++ u) = "RTSP/1.0".toList ++ u := fun u =>
    trimLeft_cons (c := 'R') (t := "TSP/1.0".toList ++ u) rfl
  have hstatus : ∀ u : Text, extractUnsigned (' ' :: '2' :: '0' :: '0' :: ' ' :: u) = some (200, ' ' :: u) := by
    intro u
    have hskip : trimLeft (' ' :: '2' :: '0' :: '0' :: ' ' :: u) = '2' :: '0' :: '0' :: ' ' :: u := rfl
    rw [extractUnsigned, hskip]
    rfl
  have hrest : breakAt '\n' (' ' :: "OK\r".toList ++ '\n' :: s) = some (' ' :: "OK\r".toList, s) :=
    breakAt_append (by decide)
  rw [hline, List.append_assoc, readStatus, htrim, List.takeWhile_append_of_pos hversion,
    List.dropWhile_append_of_pos hversion]
  simp only [List.cons_append] at hrest ⊢
  rw [List.takeWhile_cons_of_neg (by decide), List.dropWhile_cons_of_neg (by decide), hstatus, List.append_nil,
    if_neg (by decide), Option.bind_some, hrest]
  rfl

/-- **What a session has sent is what a client is told**: the description it has asked for,
and then every announcement, in order, each under the name in its URL and each replied to
with its number. -/
theorem process_records (henc : ∀ t, h.encodeUrl t = percentEncode isEncoded t) (hdec : ∀ t, h.decodeUrl t = percentDecode t)
    (hby : byNamePrefix <:+: t.path) (hwait : t.waitForUpdates = true) {rs : List RtspRecord}
    (hsent : ∀ r ∈ rs, Sent h r) {n : ℕ} (hn : rs.length < n) (request : Text) (id : UInt8) {sdp : Text}
    (hsdp : Readable sdp) :
    process h.decodeUrl t cseq n
        ((RtspRecord.answered request cseq.toNat (.described id sdp) :: rs).flatMap (·.toText h)) =
      { ok := true
        source := lastSource t (rtspSource t.dstAddress sdp) rs
        acts := .told t.name t.domain (rtspSource t.dstAddress sdp) :: rs.flatMap (toldOf h t) } := by
  have hstream : (RtspRecord.answered request cseq.toNat (.described id sdp) :: rs).flatMap (·.toText h) =
      "RTSP/1.0 200 OK\r".toList ++ '\n' ::
        (unlines (bodyHeaders cseq.toNat sdp) ++ (crlf ++ (sdp ++ rs.flatMap (·.toText h)))) := by
    rw [List.flatMap_cons, toText_described]
    simp only [List.append_assoc, List.cons_append]
  have hnumber : cseq.toNat ≤ 2147483647 := by
    have := cseq.toNat_lt
    omega
  have hres := readResponse_bodyHeaders hnumber hsdp (rs.flatMap (·.toText h))
  rw [hstream, process, readStatus_ok]
  dsimp only
  rw [if_neg (by decide), rounds_records henc hdec hby hwait hsent hn hres (fun _ => rfl) rfl]
  simp [respond]

end stream

end RtspClient
end Aes67Daemon
