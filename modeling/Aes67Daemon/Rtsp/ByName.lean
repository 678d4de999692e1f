import Aes67Daemon.Config.Reread
import Aes67Daemon.Lib.Percent
import Aes67Daemon.Net.UrlForm
import Aes67Daemon.Rtsp.Framing
import Aes67Daemon.Session.Names
import Aes67Daemon.Session.RoundTrip
import Mathlib.Data.List.DropRight

/-!
# Addressing a source by its name

`RtspClient` asks for `/by-name/<node id> <name>`, percent-encoded, and `RtspSession` decodes the
whole URL, takes it apart and cuts the name out of the path.  The percent sign itself is not
encoded, so what looks like an encoded byte in a node id or a name is decoded on arrival; and a
tab stays in the URL, where one at its end is trimmed.

## Main definitions

* `describeRequest`, `byNamePath` — the request of `RtspClient::process`, and the path.
* `lookedUp` — the name that `build_response` looks up.
* `ByName` — a source is addressed by its name.
* `byName_iff` — when this is so.
-/
namespace Aes67Daemon

open Text

/-! ## The request -/

/-- A character of a host or a port. -/
def isHostChar (c : Char) : Bool := !isSpace c && c ≠ '/' && c ≠ '%' && c ≠ '\x00'

/-- Where a client connects to. -/
structure RtspEndpoint where
  host : Text
  port : Text
  host_ne_nil : host ≠ []
  host_head : host.head? ≠ some ':'
  plain : (host ++ ':' :: port).all isHostChar = true

/-- The characters that `encode_url` encodes. -/
def isEncoded (c : Char) : Bool := " +\r\n',;".toList.contains c || 0x80 ≤ c.toNat

/-- What `RtspClient::process` sends. -/
def describeRequest (h : RtspHost) (e : RtspEndpoint) (path : Text) (cseq : UInt16) : Text :=
  "DESCRIBE rtsp://".toList ++ e.host ++ ':' :: e.port ++ h.encodeUrl path ++ " RTSP/1.0\r\n".toList ++
    "CSeq: ".toList ++ ofNat cseq.toNat ++ "\r\n".toList ++
    "User-Agent: aes67-daemon\r\n".toList ++
    "Accept: application/sdp\r\n\r\n".toList

/-- The path for a source. -/
def byNamePath (nodeId name : Text) : Text := "/by-name/".toList ++ nodeId ++ ' ' :: name

/-- The answers of a session manager. -/
def SessionManager.directory (host : Host) (env : Env) (s : SessionManager) : Directory where
  sourceId := s.getSourceId
  sourceSdp id := s.getSourceSdpOf host env id.toUInt32

/-- The URL that `process_request` gives to `build_response`. -/
def requestUrl (request : Text) : Text := trim ((requestFields ((getLines request).headD [])).getD 1 [])

/-- The name that `build_response` looks up, when it looks for a name. -/
def lookedUp (h : RtspHost) (url : Text) : Option Text :=
  (parseUrl (h.decodeUrl url)).bind fun u =>
    let basePath := "/by-name/".toList ++ h.config.nodeId ++ [' ']
    if u.ok && (seek basePath u.path).isSome then some (u.path.drop basePath.length) else none

/-- A source is addressed by its name: the request fits in the buffer, its name arrives, and a
session that has it in its buffer answers with the description of the source. -/
structure ByName (h : RtspHost) (env : Env) (s : SessionManager) (e : RtspEndpoint) (cseq : UInt16) (id : UInt8)
    (name : Text) : Prop where
  fits : (describeRequest h e (byNamePath h.config.nodeId name) cseq).length ≤ RtspSession.maxLength
  arrives : lookedUp h (requestUrl (describeRequest h e (byNamePath h.config.nodeId name) cseq)) = some name
  described : ∀ t : RtspSession, t.buffer = describeRequest h e (byNamePath h.config.nodeId name) cseq →
    ∃ request sdp t', s.getSourceSdpOf h.toHost env id.toUInt32 = some sdp ∧
      t.processRequest h (s.directory h.toHost env) = some (some t.buffer.length, t') ∧
      t'.log = .answered request cseq.toNat (.described id sdp) :: t.log

/-! ## Texts -/

variable {h : RtspHost} {e : RtspEndpoint} {path name : Text} {cseq : UInt16}

/-- White space behind a text is trimmed. -/
theorem trim_append_spaces {c : Char} {t w : Text} (hc : isSpace c = false) (ht : NoSpaceLast (c :: t))
    (hw : ∀ d ∈ w, isSpace d = true) : trim (c :: t ++ w) = c :: t := by
  obtain ⟨d, hd, hs⟩ := ht
  obtain ⟨u, hu⟩ := List.getLast?_eq_some_iff.mp hd
  have hdrop : trimLeft (w.reverse ++ (c :: t).reverse) = (c :: t).reverse := by
    rw [trimLeft, List.dropWhile_append_of_pos fun x hx => hw x (List.mem_reverse.mp hx), hu, List.reverse_append,
      List.reverse_singleton, List.singleton_append, List.dropWhile_cons_of_neg (by simp [hs])]
  rw [trim, List.cons_append, trimLeft_cons hc, ← List.cons_append, List.reverse_append, hdrop, List.reverse_reverse]

theorem isEncoded_percent : isEncoded '%' = false := rfl

theorem isEncoded_hex (c : Char) (hc : (hexDigit c).isSome = true) : isEncoded c = false := by
  have hlist : " +\r\n',;".toList.contains c = false := by
    by_contra hmem
    rw [Bool.not_eq_false, List.contains_iff_mem] at hmem
    have hnone := List.all_eq_true.mp
      (show (" +\r\n',;".toList.all fun c => (hexDigit c).isNone) = true by decide) c hmem
    rw [Option.isNone_iff_eq_none] at hnone
    rw [hnone] at hc
    cases hc
  have hlow : c.toNat < 0x80 := by
    rw [hexDigit] at hc
    split at hc
    next hdigit =>
      simp only [Char.isDigit, Bool.and_eq_true, decide_eq_true_eq] at hdigit
      exact lt_of_le_of_lt (UInt32.le_iff_toNat_le.mp hdigit.2) (by decide)
    · split at hc
      next hlower => exact lt_of_le_of_lt (UInt32.le_iff_toNat_le.mp hlower.2) (by decide)
      · split at hc
        next hupper => exact lt_of_le_of_lt (UInt32.le_iff_toNat_le.mp hupper.2) (by decide)
        · cases hc
  rw [isEncoded, hlist, Bool.false_or, decide_eq_false (not_le.mpr hlow)]

theorem toLower_ofNat (n : ℕ) : toLower (ofNat n) = ofNat n :=
  List.map_congr_left (fun _ hc => toLower_of_isDigit (digits_isDigit hc)) |>.trans (List.map_id _)

/-- The header with the number of the request. -/
theorem headerLine_describe (cseq : UInt16) :
    headerLine ("CSeq: ".toList ++ ofNat cseq.toNat ++ ['\r']) = .cseq cseq.toNat := by
  have hlower : toLower ("CSeq: ".toList ++ ofNat cseq.toNat ++ ['\r']) =
      "cseq: ".toList ++ ofNat cseq.toNat ++ ['\r'] := by
    rw [toLower, List.map_append, List.map_append, ← toLower, ← toLower, toLower_ofNat]
    rfl
  have htrim : trim ("cseq: ".toList ++ ofNat cseq.toNat ++ ['\r']) = "cseq: ".toList ++ ofNat cseq.toNat :=
    trim_append_spaces (c := 'c') (t := "seq: ".toList ++ ofNat cseq.toNat) rfl
      ((noSpaceLast_ofNat cseq.toNat).append "cseq: ".toList) (by simp [isSpace])
  have hnumber : stoi (' ' :: ofNat cseq.toNat) = some (cseq.toNat : ℤ) := by
    have hskip : stoi (' ' :: ofNat cseq.toNat) = stoi (ofNat cseq.toNat) := rfl
    rw [hskip, stoi_ofNat (by have := cseq.toNat_lt; omega)]
  rw [headerLine, if_neg (by simp)]
  dsimp only
  rw [hlower, htrim, if_pos ⟨' ' :: ofNat cseq.toNat, rfl⟩]
  split
  · rename_i n hn
    have hsome : some n = some (cseq.toNat : ℤ) := hn.symm.trans hnumber
    rw [Option.some.inj hsome]
  · rename_i hn
    have hnone : none = some (cseq.toNat : ℤ) := hn.symm.trans hnumber
    cases hnone

/-! ## The request line -/

/-- The URL of the request. -/
def describeUrl (e : RtspEndpoint) (path : Text) : Text :=
  "rtsp://".toList ++ (e.host ++ ':' :: e.port) ++ percentEncode isEncoded path

theorem isEncoded_byte (hpath : path.all isDesired = true) : ∀ c ∈ path, isEncoded c = true → c.toNat < 256 :=
  fun c hc _ => (isDesired_lt (List.all_eq_true.mp hpath c hc)).trans (by decide)

/-- The URL has no blank, no line break and no null byte. -/
theorem notMem_describeUrl (hpath : path.all isDesired = true) {c : Char} (hc : c = ' ' ∨ c = '\n' ∨ c = '\x00') :
    c ∉ describeUrl e path := by
  have hhost : c ∉ e.host ++ ':' :: e.port := fun hmem => by
    have hchar := List.all_eq_true.mp e.plain c hmem
    rcases hc with rfl | rfl | rfl <;> exact absurd hchar (by decide)
  have hencoded : isEncoded c = true ∨ c ∉ path := by
    rcases hc with rfl | rfl | rfl
    · exact .inl rfl
    · exact .inl rfl
    · refine .inr fun hmem => ?_
      exact absurd (List.all_eq_true.mp hpath _ hmem) (by decide)
  have hpct : c ∉ percentEncode isEncoded path := by
    refine notMem_percentEncode hencoded ?_ ?_ (isEncoded_byte hpath)
    · rcases hc with rfl | rfl | rfl <;> decide
    · rcases hc with rfl | rfl | rfl <;> rfl
  have hscheme : c ∉ "rtsp://".toList := by rcases hc with rfl | rfl | rfl <;> decide
  exact fun hmem => (List.mem_append.mp hmem).elim (fun hleft => (List.mem_append.mp hleft).elim hscheme hhost) hpct

/-- Three words and a carriage return. -/
theorem requestFields_words {c : Char} {a b d : Text} (hc : isSpace c = false) (ha : ' ' ∉ c :: a) (hb : ' ' ∉ b)
    (hd : ' ' ∉ d) (hlast : NoSpaceLast d) :
    requestFields (c :: a ++ ' ' :: (b ++ ' ' :: d) ++ ['\r']) = [c :: a, b, d] := by
  have hword : ∀ w : Text, ' ' ∉ w → ∀ x ∈ w, decide (x = ' ') = false := fun w hw x hx =>
    decide_eq_false fun heq => hw (heq ▸ hx)
  have htrim : trim (c :: (a ++ ' ' :: (b ++ ' ' :: d)) ++ ['\r']) = c :: (a ++ ' ' :: (b ++ ' ' :: d)) := by
    refine trim_append_spaces hc ?_ (by simp [isSpace])
    have happ := hlast.append (c :: a ++ ' ' :: (b ++ [' ']))
    simpa using happ
  rw [requestFields, List.cons_append, htrim, ← List.cons_append, splitBy_append_cons (hword _ ha) rfl,
    splitBy_append_cons (hword b hb) rfl, splitBy_eq_singleton (hword d hd)]

/-- The request line. -/
def describeLine (e : RtspEndpoint) (path : Text) : Text :=
  "DESCRIBE".toList ++ ' ' :: (describeUrl e path ++ ' ' :: "RTSP/1.0".toList) ++ ['\r']

theorem requestFields_describeLine (hpath : path.all isDesired = true) :
    requestFields (describeLine e path) = ["DESCRIBE".toList, describeUrl e path, "RTSP/1.0".toList] :=
  requestFields_words (c := 'D') (a := "ESCRIBE".toList) rfl (by decide) (notMem_describeUrl hpath (.inl rfl))
    (by decide) ⟨'0', rfl, rfl⟩

theorem notMem_describeLine (hpath : path.all isDesired = true) {c : Char} (hc : c = '\n' ∨ c = '\x00') :
    c ∉ describeLine e path := by
  have hurl := notMem_describeUrl (e := e) hpath (.inr hc)
  have hword : c ∉ "DESCRIBE".toList ∧ c ∉ "RTSP/1.0".toList ∧ c ≠ ' ' ∧ c ≠ '\r' := by
    rcases hc with rfl | rfl <;> decide
  exact List.not_mem_append
    (List.not_mem_append hword.1 (List.not_mem_cons_of_ne_of_not_mem hword.2.2.1
      (List.not_mem_append hurl (List.not_mem_cons_of_ne_of_not_mem hword.2.2.1 hword.2.1))))
    (mt List.mem_singleton.mp hword.2.2.2)

/-- The request, as its lines. -/
def describeOpen (e : RtspEndpoint) (path : Text) (hpath : path.all isDesired = true) (cseq : UInt16) :
    OpenRequest where
  line := describeLine e path
  headers := ["CSeq: ".toList ++ ofNat cseq.toNat ++ ['\r'], "User-Agent: aes67-daemon\r".toList,
    "Accept: application/sdp\r".toList]
  one_line := notMem_describeLine hpath (.inl rfl)
  three_fields := by rw [requestFields_describeLine hpath]; rfl
  headers_go := by
    have hnum : '\n' ∉ "CSeq: ".toList ++ ofNat cseq.toNat ++ ['\r'] := by
      simp only [List.mem_append, not_or]
      exact ⟨⟨by decide, not_mem_ofNat rfl _⟩, by decide⟩
    simp only [List.forall_mem_cons, List.not_mem_nil, false_implies, implies_true, and_true]
    exact ⟨⟨hnum, by rw [headerLine_describe]; trivial⟩, ⟨by decide, trivial⟩, by decide, trivial⟩


theorem describeRequest_eq (henc : ∀ t, h.encodeUrl t = percentEncode isEncoded t)
    (hpath : path.all isDesired = true) :
    describeRequest h e path cseq = (describeOpen e path hpath cseq).text ++ ['\r'] ++ '\n' :: [] := by
  have hfirst : "DESCRIBE rtsp://".toList = "DESCRIBE".toList ++ ' ' :: "rtsp://".toList := by decide
  have hline : " RTSP/1.0\r\n".toList = ' ' :: ("RTSP/1.0".toList ++ ['\r', '\n']) := by decide
  have hagent : "User-Agent: aes67-daemon\r\n".toList = "User-Agent: aes67-daemon\r".toList ++ ['\n'] := by decide
  have haccept : "Accept: application/sdp\r\n\r\n".toList =
      "Accept: application/sdp\r".toList ++ ['\n', '\r', '\n'] := by decide
  have hend : "\r\n".toList = ['\r', '\n'] := by decide
  unfold describeRequest
  rw [hfirst, hline, hagent, haccept, hend, henc]
  unfold describeOpen OpenRequest.text describeLine describeUrl
  simp only [unlines_cons, List.append_assoc, List.cons_append, List.nil_append]
  rfl

/-- The request has no null byte. -/
theorem nul_notMem_describeRequest (henc : ∀ t, h.encodeUrl t = percentEncode isEncoded t)
    (hpath : path.all isDesired = true) : '\x00' ∉ describeRequest h e path cseq := by
  have hlines : ∀ ls : List Text, (∀ l ∈ ls, '\x00' ∉ l) → '\x00' ∉ unlines ls := by
    intro ls hls
    induction ls with
    | nil => exact List.not_mem_nil
    | cons l ls ih =>
      rw [List.forall_mem_cons] at hls
      rw [unlines_cons]
      exact List.not_mem_append hls.1 (List.not_mem_cons_of_ne_of_not_mem (by decide) (ih hls.2))
  have hnumber : '\x00' ∉ "CSeq: ".toList ++ ofNat cseq.toNat ++ ['\r'] :=
    List.not_mem_append (List.not_mem_append (by decide) (not_mem_ofNat rfl _)) (by decide)
  rw [describeRequest_eq henc hpath]
  refine List.not_mem_append (List.not_mem_append (hlines _ ?_) (by decide)) (by decide)
  exact List.forall_mem_cons.mpr ⟨notMem_describeLine hpath (.inr rfl), List.forall_mem_cons.mpr
    ⟨hnumber, List.forall_mem_cons.mpr ⟨by decide, List.forall_mem_cons.mpr ⟨by decide, nofun⟩⟩⟩⟩

theorem requestUrl_describeRequest (henc : ∀ t, h.encodeUrl t = percentEncode isEncoded t)
    (hpath : path.all isDesired = true) :
    requestUrl (describeRequest h e path cseq) = trim (describeUrl e path) := by
  have hline : (getLines (describeRequest h e path cseq)).headD [] = describeLine e path := by
    rw [describeRequest_eq henc hpath, List.append_assoc, OpenRequest.text_append,
      getLines_line_append (describeOpen e path hpath cseq).one_line]
    rfl
  rw [requestUrl, hline, requestFields_describeLine hpath]
  rfl

/-- A session that has the request in its buffer builds a response for its URL. -/
theorem processRequest_describe {dir : Directory} (henc : ∀ t, h.encodeUrl t = percentEncode isEncoded t)
    (hpath : path.all isDesired = true) {t : RtspSession} (ht : t.buffer = describeRequest h e path cseq) :
    t.processRequest h dir =
      (buildResponse h dir (requestUrl (describeRequest h e path cseq))).map fun a =>
        (some t.buffer.length, { t with cseq := cseq.toNat }.record (describeLine e path) a) := by
  have hbuffer := ht.trans (describeRequest_eq henc hpath)
  have hnul : '\x00' ∉ t.buffer := ht ▸ nul_notMem_describeRequest henc hpath
  have hcseq : lastCseq t.cseq (describeOpen e path hpath cseq).headers = cseq.toNat := by
    rw [lastCseq, describeOpen, List.foldl_cons, headerLine_describe]
    rfl
  have hanswer : answer h dir (requestFields (describeLine e path)) cseq.toNat =
      buildResponse h dir (requestUrl (describeRequest h e path cseq)) := by
    have hneg : ¬ ((cseq.toNat : ℤ) < 0) := not_lt.mpr (Int.natCast_nonneg _)
    have hfields : ∀ a b c : Text, [a, b, c].getD 0 [] = a ∧ [a, b, c].getD 1 [] = b ∧ [a, b, c].getD 2 [] = c :=
      fun _ _ _ => ⟨rfl, rfl, rfl⟩
    unfold answer
    rw [requestFields_describeLine hpath, requestUrl_describeRequest henc hpath, (hfields _ _ _).1,
      (hfields _ _ _).2.1, (hfields _ _ _).2.2, if_neg (by decide), if_neg hneg, if_neg (by decide), if_neg (by decide)]
  have hlength : (describeOpen e path hpath cseq).text.length + ['\r'].length + 1 = t.buffer.length := by
    rw [hbuffer]
    simp
  rw [RtspSession.processRequest_complete hnul (.inr rfl) hbuffer, hcseq, hlength]
  exact congrArg _ hanswer

/-! ## The URL on arrival -/

theorem byNamePath_append (nodeId a b : Text) : byNamePath nodeId (a ++ b) = byNamePath nodeId a ++ b :=
  (List.append_assoc _ (' ' :: a) b).symm

theorem byNamePath_ne_nil (nodeId name : Text) : byNamePath nodeId name ≠ [] :=
  List.append_ne_nil_of_right_ne_nil _ (List.cons_ne_nil _ _)

/-- An encoded text ends in white space only with a tab. -/
theorem noSpaceLast_encoded {t : Text} (hclean : t.all isDesired = true) (hne : t ≠ [])
    (ht : t.getLast? ≠ some '\t') : NoSpaceLast (percentEncode isEncoded t) := by
  obtain ⟨u, d, rfl⟩ := (List.eq_nil_or_concat' t).resolve_left hne
  have hd : isDesired d = true := List.all_eq_true.mp hclean d (by simp)
  have htab : d ≠ '\t' := fun heq => ht (by simp [heq])
  rw [percentEncode_append]
  refine NoSpaceLast.append ?_ _
  cases hp : isEncoded d with
  | true =>
    rw [percentEncode_cons_of_pos hp]
    have hdigit : ∀ n, n < 16 → isSpace (upperHexDigit n) = false := by decide
    exact ⟨_, rfl, hdigit _ (Nat.mod_lt _ (by decide))⟩
  | false =>
    rw [percentEncode_cons_of_neg hp]
    refine ⟨d, rfl, ?_⟩
    by_contra hspace
    simp only [Bool.not_eq_false, isSpace, Bool.or_eq_true, decide_eq_true_eq] at hspace
    rcases hspace with ((((rfl | rfl) | rfl) | rfl) | rfl) | rfl
    · exact absurd hp (by decide)
    · exact htab rfl
    · exact absurd hp (by decide)
    · exact absurd hd (by decide)
    · exact absurd hd (by decide)
    · exact absurd hp (by decide)

/-- The URL is trimmed: tabs at its end are lost. -/
theorem trim_describeUrl (nodeId name : Text) (hpath : (byNamePath nodeId name).all isDesired = true) :
    trim (describeUrl e (byNamePath nodeId name)) =
      describeUrl e (byNamePath nodeId (name.rdropWhile (· = '\t'))) := by
  obtain ⟨shorter, hshorter⟩ : ∃ shorter, shorter = name.rdropWhile (· = '\t') := ⟨_, rfl⟩
  obtain ⟨tabs, htabs⟩ : ∃ tabs, tabs = name.rtakeWhile (· = '\t') := ⟨_, rfl⟩
  have hname : name = shorter ++ tabs := by rw [hshorter, htabs, List.rdropWhile_append_rtakeWhile]
  have htab : ∀ c ∈ tabs, c = '\t' := fun c hc => by
    rw [htabs] at hc
    simpa using List.mem_rtakeWhile_imp hc
  have hsame : percentEncode isEncoded tabs = tabs := percentEncode_eq_self fun c hc => by rw [htab c hc]; rfl
  rw [hname, byNamePath_append, List.all_append, Bool.and_eq_true] at hpath
  have hurl : describeUrl e (byNamePath nodeId name) = describeUrl e (byNamePath nodeId shorter) ++ tabs := by
    unfold describeUrl
    rw [hname, byNamePath_append, percentEncode_append, hsame]
    exact (List.append_assoc _ _ _).symm
  have hlast : NoSpaceLast (describeUrl e (byNamePath nodeId shorter)) := by
    refine (noSpaceLast_encoded hpath.1 (byNamePath_ne_nil nodeId shorter) ?_).append _
    rcases List.eq_nil_or_concat' shorter with rfl | ⟨u, d, rfl⟩
    · have hblank : (byNamePath nodeId []).getLast? = some ' ' := List.getLast?_concat
      rw [hblank]
      decide
    · have hd := List.rdropWhile_last_not (· = '\t') name (by rw [← hshorter]; simp)
      simp only [← hshorter, List.getLast_append_singleton, decide_eq_true_eq] at hd
      rw [byNamePath_append, List.getLast?_concat]
      exact fun heq => hd (Option.some.inj heq)
  rw [hurl, ← hshorter]
  exact trim_append_spaces (c := 'r') rfl hlast fun d hd => by rw [htab d hd]; rfl

/-- The URL, decoded, is taken apart. -/
theorem parseUrl_decoded (e : RtspEndpoint) (path : Text) :
    ∃ u, parseUrl ("rtsp://".toList ++ (e.host ++ ':' :: e.port) ++ '/' :: path) = some u ∧ u.ok = true ∧
      u.path = '/' :: path := by
  obtain ⟨host, port, hsplit, hhost⟩ := List.eq_append_cons_of_mem
    (List.mem_append_right e.host (List.mem_cons_self (a := ':') (l := e.port)))
  have hslash : '/' ∉ host ++ ':' :: port := fun hmem =>
    absurd (List.all_eq_true.mp e.plain '/' (hsplit ▸ hmem)) (by decide)
  have hne : host ≠ [] := by
    rintro rfl
    obtain ⟨c, t, ht⟩ := List.exists_cons_of_ne_nil e.host_ne_nil
    rw [ht] at hsplit
    exact e.host_head (by rw [ht, (List.cons.inj hsplit).1]; rfl)
  have hplain : UrlPlain host := fun c hc => by
    have hcolon : c ≠ ':' := ne_of_mem_of_not_mem hc hhost
    have hsep : c ≠ '/' := fun heq => hslash (List.mem_append_left _ (heq ▸ hc))
    simp [isUrlSep, hcolon, hsep]
  have hauthority : Authority (host ++ (':' :: port ++ '/' :: path)) host port ('/' :: path) :=
    ⟨hplain, _, _, .present fun hmem => hslash (by simp [hmem]), .present path, rfl⟩
  have hrest : ¬SlashFirst (host ++ (':' :: port ++ '/' :: path)) := fun hfirst => by
    have htake := hfirst.2
    rw [List.cons_append, takeWhile_ne_append hhost] at htake
    exact hslash (List.mem_append_left _ htake)
  have hurl : "rtsp://".toList ++ (e.host ++ ':' :: e.port) ++ '/' :: path =
      "rtsp".toList ++ (':' :: '/' :: '/' :: (host ++ (':' :: port ++ '/' :: path))) := by
    have hword : "rtsp://".toList = "rtsp".toList ++ [':', '/', '/'] := by decide
    rw [hword, hsplit, List.append_assoc, List.append_assoc, List.append_assoc]
    rfl
  rw [hurl, parseUrl_scheme (urlPlain_of_all (by decide)),
    splitAuthority_eq hauthority hrest]
  exact ⟨_, rfl, by simpa using hne, rfl⟩


theorem rdropWhile_tab_iff (name : Text) : name.rdropWhile (· = '\t') = name ↔ name.getLast? ≠ some '\t' := by
  rcases List.eq_nil_or_concat' name with rfl | ⟨u, d, rfl⟩
  · simp
  · rw [List.rdropWhile_eq_self_iff]
    simp

/-- What a session finds in the URL. -/
theorem parseUrl_describeUrl (hdec : ∀ t, h.decodeUrl t = percentDecode t) {nodeId name : Text}
    (hpath : (byNamePath nodeId name).all isDesired = true) :
    ∃ u, parseUrl (h.decodeUrl (trim (describeUrl e (byNamePath nodeId name)))) = some u ∧ u.ok = true ∧
      u.path = "/by-name/".toList ++ percentDecode (nodeId ++ ' ' :: name.rdropWhile (· = '\t')) := by
  have hhost : '%' ∉ "rtsp://".toList ++ (e.host ++ ':' :: e.port) := by
    refine List.not_mem_append (by decide) fun hmem => ?_
    exact absurd (List.all_eq_true.mp e.plain '%' hmem) (by decide)
  have hclean : (byNamePath nodeId (name.rdropWhile (· = '\t'))).all isDesired = true := by
    rw [← List.rdropWhile_append_rtakeWhile (p := (· = '\t')) (l := name), byNamePath_append, List.all_append,
      Bool.and_eq_true] at hpath
    exact hpath.1
  have hdecoded : percentDecode (byNamePath nodeId (name.rdropWhile (· = '\t'))) =
      "/by-name/".toList ++ percentDecode (nodeId ++ ' ' :: name.rdropWhile (· = '\t')) := by
    unfold byNamePath
    rw [List.append_assoc]
    exact percentDecode_append (by decide)
  have hslash : "/by-name/".toList = '/' :: "by-name/".toList := by decide
  rw [trim_describeUrl nodeId name hpath, hdec]
  unfold describeUrl
  rw [percentDecode_append hhost, percentDecode_percentEncode isEncoded_percent isEncoded_hex (isEncoded_byte hclean),
    hdecoded, hslash]
  exact parseUrl_decoded e _

/-- **The name arrives** if nothing in the node id and the name looks like an encoded byte, and
the name does not end in a tab. -/
theorem lookedUp_eq_some_iff (e : RtspEndpoint) (cseq : UInt16)
    (henc : ∀ t, h.encodeUrl t = percentEncode isEncoded t) (hdec : ∀ t, h.decodeUrl t = percentDecode t)
    (hpath : (byNamePath h.config.nodeId name).all isDesired = true) :
    lookedUp h (requestUrl (describeRequest h e (byNamePath h.config.nodeId name) cseq)) = some name ↔
      hasEscape (h.config.nodeId ++ ' ' :: name) = false ∧ name.getLast? ≠ some '\t' := by
  obtain ⟨u, hu, hok, hupath⟩ := parseUrl_describeUrl (e := e) hdec hpath
  rw [requestUrl_describeRequest henc hpath, lookedUp, hu, Option.bind_some]
  simp only [hok, Bool.true_and, Option.ite_none_right_eq_some, Option.some.injEq, hupath, seek_isSome_iff]
  generalize "/by-name/".toList = w
  rw [← rdropWhile_tab_iff, ← percentDecode_eq_self_iff]
  constructor
  · rintro ⟨hfound, hdrop⟩
    have hshort := List.rdropWhile_prefix (p := (· = '\t')) (l := name)
    have hle := hfound.length_le
    have hlength := congrArg List.length hdrop
    have hdecode := length_percentDecode_le (h.config.nodeId ++ ' ' :: name.rdropWhile (· = '\t'))
    have hprefix := hshort.length_le
    simp only [List.length_append, List.length_cons, List.length_nil, List.length_drop] at hle hlength hdecode
    have hsame : name.rdropWhile (· = '\t') = name := hshort.eq_of_length (by omega)
    rw [hsame] at hlength hle
    refine ⟨?_, hsame⟩
    rcases percentDecode_change (h.config.nodeId ++ ' ' :: name) with ⟨-, heq⟩ | ⟨-, hlt⟩
    · exact heq
    · simp only [List.length_append, List.length_cons] at hlt
      omega
  · rintro ⟨hdecode, hsame⟩
    have hsplit : w ++ (h.config.nodeId ++ ' ' :: name) = w ++ h.config.nodeId ++ [' '] ++ name := by simp
    rw [hsame, hdecode, hsplit, List.drop_left]
    exact ⟨(List.prefix_append _ _).isInfix, rfl⟩

/-- The end of `build_response`. -/
def sourceAnswer (dir : Directory) (id : UInt8) : Answer :=
  if id ≠ noSource then
    match dir.sourceSdp id with
    | some sdp => .described id sdp
    | none => .error 404 "Not found".toList
  else .error 404 "Not found".toList

/-- A name that is looked up. -/
theorem buildResponse_of_lookedUp {dir : Directory} {url n : Text} (hn : lookedUp h url = some n) :
    buildResponse h dir url = some (sourceAnswer dir (dir.sourceId n)) := by
  obtain ⟨u, hu, hn⟩ := Option.bind_eq_some_iff.mp hn
  obtain ⟨hfound, hn⟩ := Option.ite_none_right_eq_some.mp hn
  obtain ⟨hok, hseek⟩ := Bool.and_eq_true_iff.mp hfound
  obtain rfl := Option.some.inj hn
  rw [buildResponse, hu, Option.map_some]
  refine congrArg some ((if_neg ?_).trans ?_)
  · rw [hok]
    decide
  · dsimp only
    rw [if_pos hseek]
    rfl

variable {env : Env} {s : SessionManager} {id : UInt8}

theorem SessionManager.directory_sourceSdp (host : Host) (env : Env) {info : StreamInfo}
    (hstored : s.sources.find? id = some info) :
    (s.directory host env).sourceSdp id = some (getSourceSdp host env s.ptp s.driver.sampleRate info) := by
  simp [SessionManager.directory, SessionManager.getSourceSdpOf, hstored]

theorem byNamePath_clean {nodeId : Text} (hnode : nodeId.all isDesired = true) (hname : name.all isDesired = true) :
    (byNamePath nodeId name).all isDesired = true := by
  unfold byNamePath
  rw [List.all_append, List.all_append, List.all_cons, hnode, hname]
  decide

/-- **Addressing by name**: a source is addressed by its name if and only if the name leads to
the source, nothing in the node id and the name looks like an encoded byte, the name does not end
in a tab, and the request fits in the buffer. -/
theorem byName_iff (henc : ∀ t, h.encodeUrl t = percentEncode isEncoded t)
    (hdec : ∀ t, h.decodeUrl t = percentDecode t) (hnode : h.config.nodeId.all isDesired = true)
    (hname : name.all isDesired = true) (hid : id.toNat ≤ streamIdMax) {info : StreamInfo}
    (hstored : s.sources.find? id = some info) :
    ByName h env s e cseq id name ↔
      s.sourceNames.find? name = some id ∧ hasEscape (h.config.nodeId ++ ' ' :: name) = false ∧
        name.getLast? ≠ some '\t' ∧
        (describeRequest h e (byNamePath h.config.nodeId name) cseq).length ≤ RtspSession.maxLength := by
  have hpath := byNamePath_clean hnode hname
  have hlooked := lookedUp_eq_some_iff e cseq henc hdec hpath
  constructor
  · rintro ⟨hfits, harrives, hdescribed⟩
    obtain ⟨hescape, htab⟩ := hlooked.mp harrives
    refine ⟨?_, hescape, htab, hfits⟩
    obtain ⟨request, sdp, t', -, hproc, hlog⟩ := hdescribed { buffer := _ } rfl
    rw [processRequest_describe henc hpath rfl, buildResponse_of_lookedUp harrives] at hproc
    simp only [Option.map_some, Option.some.injEq, Prod.mk.injEq, true_and] at hproc
    rw [← hproc] at hlog
    simp only [RtspSession.record, List.cons.injEq, RtspRecord.answered.injEq] at hlog
    have hanswer := hlog.1.2.2
    rw [sourceAnswer] at hanswer
    -- the answer names the source that was looked up
    split at hanswer
    next hne =>
      split at hanswer
      · exact (SessionManager.getD_eq_iff hid).mp (Answer.described.inj hanswer).1
      · cases hanswer
    · cases hanswer
  · rintro ⟨hindex, hescape, htab, hfits⟩
    have harrives := hlooked.mpr ⟨hescape, htab⟩
    refine ⟨hfits, harrives, fun t ht => ?_⟩
    have hsource : (s.directory h.toHost env).sourceId name = id := (SessionManager.getD_eq_iff hid).mpr hindex
    have hne : id ≠ noSource := by
      rintro rfl
      exact absurd hid (by decide)
    have hsdp := SessionManager.directory_sourceSdp h.toHost env hstored
    rw [processRequest_describe henc hpath ht, buildResponse_of_lookedUp harrives, hsource, sourceAnswer, if_pos hne, hsdp]
    exact ⟨_, _, _, hsdp, rfl, rfl⟩

/-- A host with the functions of the library. -/
def plainHost : RtspHost where
  encodeUrl := percentEncode isEncoded
  decodeUrl := percentDecode

def plainEnv : Env := .answering none (.ok 7) (.error (.driver 1))

def plainEndpoint : RtspEndpoint where
  host := "h".toList
  port := "8854".toList
  host_ne_nil := by decide
  host_head := by decide
  plain := by decide

/-- A name with separators and a percent sign. -/
theorem byName_separators :
    ∃ s, run (SessionManager.step plainHost.toHost) (SessionManager.create plainHost.toHost)
      [.addSource plainEnv (stereoSource 1 "a/b: 5%, c".toList)] = some s ∧
      ByName plainHost plainEnv s plainEndpoint 0 1 "a/b: 5%, c".toList := by
  have hcheck : (run (SessionManager.step plainHost.toHost) (SessionManager.create plainHost.toHost)
      [.addSource plainEnv (stereoSource 1 "a/b: 5%, c".toList)]).map
      (fun s => (s.sources.find? 1).isSome && s.sourceNames.find? "a/b: 5%, c".toList == some 1) = some true := by
    decide +kernel
  obtain ⟨s, hrun, hs⟩ := Option.map_eq_some_iff.mp hcheck
  obtain ⟨hstored, hindex⟩ := Bool.and_eq_true_iff.mp hs
  obtain ⟨info, hstored⟩ := Option.isSome_iff_exists.mp hstored
  refine ⟨s, hrun, (byName_iff (fun _ => rfl) (fun _ => rfl) (by decide +kernel) (by decide +kernel) (by decide)
    hstored).mpr ⟨by simpa using hindex, by decide +kernel, by decide +kernel, by decide +kernel⟩⟩

/-- A name in which something looks like an encoded byte is not found. -/
theorem byName_decoded :
    ∃ s, run (SessionManager.step plainHost.toHost) (SessionManager.create plainHost.toHost)
      [.addSource plainEnv (stereoSource 1 "a%41".toList)] = some s ∧
      s.sourceNames.find? "a%41".toList = some 1 ∧
      ¬ByName plainHost plainEnv s plainEndpoint 0 1 "a%41".toList := by
  have hcheck : (run (SessionManager.step plainHost.toHost) (SessionManager.create plainHost.toHost)
      [.addSource plainEnv (stereoSource 1 "a%41".toList)]).map
      (fun s => s.sourceNames.find? "a%41".toList == some 1 &&
        (RtspSession.processRequest plainHost (s.directory plainHost.toHost plainEnv)
          { buffer := describeRequest plainHost plainEndpoint (byNamePath plainHost.config.nodeId "a%41".toList) 0 }).any
          fun r => r.2.log.all fun x => match x with
            | .answered _ _ (.error _ _) => true
            | _ => false) = some true := by
    decide +kernel
  obtain ⟨s, hrun, hs⟩ := Option.map_eq_some_iff.mp hcheck
  obtain ⟨hindex, hanswer⟩ := Bool.and_eq_true_iff.mp hs
  refine ⟨s, hrun, by simpa using hindex, fun hbyName => ?_⟩
  obtain ⟨request, sdp, t', -, hproc, hlog⟩ := hbyName.described
    { buffer := describeRequest plainHost plainEndpoint (byNamePath plainHost.config.nodeId "a%41".toList) 0 } rfl
  rw [hproc] at hanswer
  simp [hlog] at hanswer

end Aes67Daemon
