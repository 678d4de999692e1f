import Aes67Daemon.Rtsp.Client
import Aes67Daemon.Rtsp.Subscribers

/-!
# A session and its client

A client asks a session for the description of a source, by its name, and waits for
updates.  Its replies come whole, at any time between the updates.  The client is then
told of every update of the source, in order.

## Main definitions

* `PeerEvent` — an update of a source, or a reply of the client.
* `PeerEvent.told` — what the client makes of the events.
* `told_updates` — a run of the session, as its client sees it.
-/
namespace Aes67Daemon

open Text

/-- What happens after the description was sent. -/
inductive PeerEvent
  | update (id : UInt8) (name sdp : Text)
  /-- The client replies to an announcement; the directory is that of the session then. -/
  | reply (dir : Directory) (cseq : ℕ)

namespace PeerEvent

/-- The event of the session. -/
def toEvent : PeerEvent → RtspEvent
  | .update id name sdp => .update id name sdp
  | .reply dir cseq => .read dir (RtspClient.ClientAct.replied 200 "OK".toList cseq).toText

/-- The updates of a source. -/
def updates (id : UInt8) (es : List PeerEvent) : List (Text × Text) :=
  es.filterMap fun
    | .update id' name sdp => if id' = id then some (name, sdp) else none
    | .reply _ _ => none

/-- What a client makes of the updates: `n` is the number of the first. -/
def told (h : RtspHost) (t : RtspClient.Target) (n : ℕ) (us : List (Text × Text)) :
    List RtspClient.ClientAct :=
  (us.zipIdx n).flatMap fun u =>
    [.replied 200 "OK".toList u.2, .told (percentDecode (h.config.nodeId ++ ' ' :: u.1.1)) t.domain
      (rtspSource t.dstAddress u.1.2)]

/-- The last description. -/
def lastSdp (sdp : Text) (us : List (Text × Text)) : Text := us.foldl (fun _ u => u.2) sdp

/-- Updates of a source that can be announced, and replies that can be read. -/
def Plain (h : RtspHost) : PeerEvent → Prop
  | .update _ name sdp => (byNamePath h.config.nodeId name).all isDesired = true ∧ RtspClient.Readable sdp
  | .reply _ cseq => cseq ≤ 2147483647

end PeerEvent

namespace RtspSession
variable {h : RtspHost} {dir : Directory} {s s' : RtspSession}

/-- A request that is all that is in the buffer. -/
theorem drain_whole (hne : s.buffer ≠ []) (hp : s.processRequest h dir = some (some s.buffer.length, s')) :
    s.drain h dir = some { s' with buffer := [], cseq := -1 } := by
  obtain ⟨k, hk⟩ := Nat.exists_eq_add_one_of_ne_zero fun h0 => hne (List.length_eq_zero_iff.mp h0)
  obtain ⟨-, hbuffer⟩ := processRequest_done hp
  have hdrop : s'.buffer.drop s.buffer.length = [] := by rw [hbuffer, List.drop_length]
  rw [drain, hk, serve, if_neg hne, hp, Option.bind_some]
  dsimp only
  rw [hdrop, if_neg (by rw [hbuffer]; exact lt_irrefl _)]
  cases k with
  | zero => rfl
  | succ k => rw [serve, if_pos rfl]

/-- A read that brings all there is. -/
theorem readSome_whole {t : RtspSession} {chunk : Text} (hbuffer : s.buffer = []) (hne : chunk ≠ [])
    (hp : processRequest h dir { s with buffer := chunk } = some (some chunk.length, t)) :
    s.readSome h dir chunk = some { t with buffer := [], cseq := -1 } := by
  have hchunk : s.buffer ++ chunk = chunk := by rw [hbuffer, List.nil_append]
  rw [readSome, if_neg (by rw [hbuffer]; decide), hchunk]
  exact drain_whole (s := { s with buffer := chunk }) hne hp

end RtspSession

namespace RtspClient

theorem headerLine_cseq {n : ℕ} (hn : n ≤ 2147483647) :
    headerLine ("CSeq: ".toList ++ ofNat n ++ ['\r']) = .cseq n := by
  have htrim : trim (toLower ("CSeq: ".toList ++ ofNat n ++ ['\r'])) = "cseq:".toList ++ ' ' :: ofNat n :=
    trim_toLower_number (c := 'C') rfl "Seq: ".toList n
  have hdrop : ("cseq:".toList ++ ' ' :: ofNat n).drop 5 = ' ' :: ofNat n := rfl
  rw [headerLine, if_neg (by simp)]
  dsimp only
  rw [htrim, if_pos (List.prefix_append _ _), hdrop, stoi_blank hn]

/-- A reply, as its lines. -/
def okReply (n : ℕ) (hn : n ≤ 2147483647) : OpenRequest where
  line := "RTSP/1.0 200 OK\r".toList
  headers := ["CSeq: ".toList ++ ofNat n ++ ['\r']]
  one_line := by decide
  three_fields := by decide
  headers_go := by
    rw [List.forall_mem_singleton]
    refine ⟨List.not_mem_append (List.not_mem_append (by decide) (not_mem_ofNat rfl _)) (by decide), ?_⟩
    rw [headerLine_cseq hn]
    trivial

theorem toText_replied {n : ℕ} (hn : n ≤ 2147483647) :
    (ClientAct.replied 200 "OK".toList n).toText = (okReply n hn).text ++ ['\r'] ++ '\n' :: [] := by
  have hline : "RTSP/1.0 200 OK\r".toList = "RTSP/1.0 ".toList ++ ofNat 200 ++ ' ' :: "OK".toList ++ ['\r'] := by
    decide
  have hneg : ¬ ((n : ℤ) < 0) := not_lt.mpr (Int.natCast_nonneg n)
  have htext : (ClientAct.replied 200 "OK".toList n).toText =
      "RTSP/1.0 ".toList ++ ofNat 200 ++ ' ' :: "OK".toList ++ crlf ++ "CSeq: ".toList ++
        (if (n : ℤ) < 0 then '-' :: ofNat (-(n : ℤ)).toNat else ofNat n) ++ crlf ++ crlf := rfl
  have hshape : ∀ w₁ w₂ : Text, w₁ ++ crlf ++ w₂ ++ crlf ++ crlf =
      unlines [w₁ ++ ['\r'], w₂ ++ ['\r']] ++ ['\r'] ++ '\n' :: [] := by
    simp [unlines, crlf]
  have hlines : (okReply n hn).text =
      unlines ["RTSP/1.0 200 OK\r".toList, "CSeq: ".toList ++ ofNat n ++ ['\r']] := rfl
  rw [htext, if_neg hneg, List.append_assoc _ "CSeq: ".toList, hshape, hlines, hline]

/-- A session reads a reply, and nothing is left of it. -/
theorem readSome_reply {h : RtspHost} {dir : Directory} {s : RtspSession} {n : ℕ} (hn : n ≤ 2147483647)
    (hbuffer : s.buffer = []) :
    s.readSome h dir (ClientAct.replied 200 "OK".toList n).toText =
      some { s with
        buffer := []
        cseq := -1
        log := .answered (trim "RTSP/1.0 200 OK\r".toList) n .skipped :: s.log } := by
  have hlines : (okReply n hn).text =
      unlines ["RTSP/1.0 200 OK\r".toList, "CSeq: ".toList ++ ofNat n ++ ['\r']] := rfl
  have hnul : '\x00' ∉ (okReply n hn).text ++ ['\r'] ++ '\n' :: [] := by
    rw [hlines, unlines_cons, unlines_cons]
    refine List.not_mem_append (List.not_mem_append (List.not_mem_append (by decide)
      (List.not_mem_cons_of_ne_of_not_mem (by decide) (List.not_mem_append ?_ (by decide)))) (by decide)) (by decide)
    exact List.not_mem_append (List.not_mem_append (by decide) (not_mem_ofNat rfl n)) (by decide)
  have hcseq : ∀ c : ℤ, lastCseq c (okReply n hn).headers = n := by
    intro c
    have hheaders : (okReply n hn).headers = ["CSeq: ".toList ++ ofNat n ++ ['\r']] := rfl
    rw [hheaders, lastCseq, List.foldl_cons, headerLine_cseq hn]
    rfl
  have hline : (okReply n hn).line = "RTSP/1.0 200 OK\r".toList := rfl
  have hanswer : answer h dir (requestFields (okReply n hn).line) n = some .skipped := by
    have hfirst : ((requestFields "RTSP/1.0 200 OK\r".toList).getD 0 []).take 5 = "RTSP/".toList := by decide
    rw [hline, answer, if_pos hfirst]
  rw [toText_replied hn]
  refine RtspSession.readSome_whole (t := { s with
    buffer := (okReply n hn).text ++ ['\r'] ++ '\n' :: []
    cseq := n
    log := .answered (trim "RTSP/1.0 200 OK\r".toList) n .skipped :: s.log }) hbuffer (by simp) ?_
  rw [RtspSession.processRequest_complete (o := okReply n hn) (e := ['\r']) (t := []) hnul (.inr rfl) rfl, hcseq, hanswer,
    hline]
  simp [RtspSession.record]

/-- A session that gets the request of a client describes the source. -/
theorem readSome_describe {h : RtspHost} {dir : Directory} {e : RtspEndpoint} {path sdp : Text} {cseq : UInt16}
    {id : UInt8} (henc : ∀ t, h.encodeUrl t = percentEncode isEncoded t) (hpath : path.all isDesired = true)
    (hanswer : buildResponse h dir (requestUrl (describeRequest h e path cseq)) = some (.described id sdp)) :
    RtspSession.readSome h dir {} (describeRequest h e path cseq) =
      some
        { sourceIds := [id]
          log := [.answered (trim (describeLine e path)) cseq.toNat (.described id sdp)] } := by
  refine RtspSession.readSome_whole (t := RtspSession.record { buffer := describeRequest h e path cseq, cseq := cseq.toNat }
    (describeLine e path) (.described id sdp)) rfl ?_ ?_
  · unfold describeRequest
    simp
  · rw [processRequest_describe henc hpath (Eq.refl (describeRequest h e path cseq)), hanswer]
    rfl

section told

variable {h : RtspHost} {e : RtspEndpoint} {t : Target} {cseq : UInt16} {id : UInt8} {dir : Directory}

/-- **What a session logs of some events**, oldest first. -/
theorem run_records {es : List PeerEvent} (hplain : ∀ e ∈ es, e.Plain h) {s : RtspSession}
    (hbuffer : s.buffer = []) (hcseq : s.cseq = -1) (hids : s.sourceIds = [id])
    (hn : s.announceCseq + es.length ≤ 2147483647) :
    ∃ s' rs, run (RtspSession.occur h) s (es.map PeerEvent.toEvent) = some s' ∧
      s'.log = rs.reverse ++ s.log ∧ (∀ r ∈ rs, Sent h r) ∧
      rs.flatMap (toldOf h t) = PeerEvent.told h t s.announceCseq (PeerEvent.updates id es) ∧
      (∀ sdp, lastSource t (rtspSource t.dstAddress sdp) rs =
        rtspSource t.dstAddress (PeerEvent.lastSdp sdp (PeerEvent.updates id es))) ∧
      rs.length ≤ 2 * es.length := by
  induction es generalizing s with
  | nil => exact ⟨s, [], rfl, rfl, nofun, rfl, fun _ => rfl, le_refl _⟩
  | cons ev es ih =>
      obtain ⟨hev, hes⟩ := List.forall_mem_cons.mp hplain
      rw [List.length_cons] at hn
      cases ev with
      | reply dir n =>
          obtain ⟨s', rs, hrun, hlog, hsent, htold, hlast, hlength⟩ := ih hes
            (s := { s with
              buffer := []
              cseq := -1
              log := .answered (trim "RTSP/1.0 200 OK\r".toList) n .skipped :: s.log })
            rfl rfl hids (by dsimp only; omega)
          refine ⟨s', .answered (trim "RTSP/1.0 200 OK\r".toList) n .skipped :: rs, ?_, ?_,
            List.forall_mem_cons.mpr ⟨rfl, hsent⟩, htold, hlast, by simp only [List.length_cons]; omega⟩
          · rw [List.map_cons, run_cons, PeerEvent.toEvent, RtspSession.occur, readSome_reply hev hbuffer]
            exact hrun
          · rw [hlog, List.reverse_cons, List.append_assoc]
            rfl
      | update id' name sdp =>
          have hneg : s.cseq < 0 := by rw [hcseq]; decide
          by_cases hid : id' = id
          · subst hid
            have hannounce : s.announce id' name sdp = { s with
                log := .announced s.announceCseq id' name sdp :: .updated id' sdp :: s.log
                announceCseq := s.announceCseq + 1 } := by
              rw [RtspSession.announce]
              exact if_pos ⟨hneg, by rw [hids]; exact List.mem_singleton_self _⟩
            obtain ⟨s', rs, hrun, hlog, hsent, htold, hlast, hlength⟩ := ih hes
              (s := { s with
                log := .announced s.announceCseq id' name sdp :: .updated id' sdp :: s.log
                announceCseq := s.announceCseq + 1 }) hbuffer hcseq hids (by dsimp only; omega)
            refine ⟨s', .updated id' sdp :: .announced s.announceCseq id' name sdp :: rs, ?_, ?_,
              List.forall_mem_cons.mpr ⟨trivial, List.forall_mem_cons.mpr ⟨⟨by omega, hev.1, hev.2⟩, hsent⟩⟩,
              ?_, fun sdp' => ?_, by simp only [List.length_cons]; omega⟩
            · rw [List.map_cons, run_cons, PeerEvent.toEvent, RtspSession.occur, hannounce]
              exact hrun
            · rw [hlog]
              simp
            · rw [List.flatMap_cons, List.flatMap_cons, htold]
              simp [toldOf, PeerEvent.updates, PeerEvent.told, List.zipIdx_cons]
            · have hnext := hlast sdp
              simpa [lastSource, PeerEvent.lastSdp, PeerEvent.updates] using hnext
          · have hannounce : s.announce id' name sdp = { s with log := .updated id' sdp :: s.log } := by
              rw [RtspSession.announce]
              exact if_neg fun hno => hid (List.mem_singleton.mp (hids ▸ hno.2))
            obtain ⟨s', rs, hrun, hlog, hsent, htold, hlast, hlength⟩ := ih hes
              (s := { s with log := .updated id' sdp :: s.log }) hbuffer hcseq hids (by dsimp only; omega)
            have hother : PeerEvent.updates id (.update id' name sdp :: es) = PeerEvent.updates id es := by
              simp [PeerEvent.updates, hid]
            refine ⟨s', .updated id' sdp :: rs, ?_, ?_, List.forall_mem_cons.mpr ⟨trivial, hsent⟩, ?_, fun sdp' => ?_,
              by simp only [List.length_cons]; omega⟩
            · rw [List.map_cons, run_cons, PeerEvent.toEvent, RtspSession.occur, hannounce]
              exact hrun
            · rw [hlog]
              simp
            · rw [hother, ← htold]
              rfl
            · rw [hother, ← hlast sdp']
              rfl

/-- **A client is told of every update**: a session that is asked for a source by a client
which waits describes it, and whatever is updated then, and whenever the client replies,
the client is told of that description and of every update of the source, in order and
each once, and replies to each with its number. -/
theorem told_updates (henc : ∀ t, h.encodeUrl t = percentEncode isEncoded t) (hdec : ∀ t, h.decodeUrl t = percentDecode t)
    (hpath : t.path.all isDesired = true) (hby : byNamePrefix <:+: t.path) (hwait : t.waitForUpdates = true)
    {sdp : Text} (hsdp : Readable sdp)
    (hanswer : buildResponse h dir (requestUrl (describeRequest h e t.path cseq)) = some (.described id sdp))
    {es : List PeerEvent} (hplain : ∀ e ∈ es, e.Plain h) (hcount : es.length ≤ 2147483647)
    {n : ℕ} (hn : 2 * es.length < n) :
    ∃ s, run (RtspSession.occur h) {}
        (.read dir (describeRequest h e t.path cseq) :: es.map PeerEvent.toEvent) = some s ∧
      process h.decodeUrl t cseq n (s.log.reverse.flatMap (·.toText h)) =
        { ok := true
          source := rtspSource t.dstAddress (PeerEvent.lastSdp sdp (PeerEvent.updates id es))
          acts := .told t.name t.domain (rtspSource t.dstAddress sdp) ::
            PeerEvent.told h t 0 (PeerEvent.updates id es) } := by
  obtain ⟨s, rs, hrun, hlog, hsent, htold, hlast, hlength⟩ := @run_records h t id es hplain
    { sourceIds := [id]
      log := [.answered (trim (describeLine e t.path)) cseq.toNat (.described id sdp)] }
    rfl rfl rfl (by simpa using hcount)
  refine ⟨s, ?_, ?_⟩
  · rw [run_cons, RtspSession.occur, readSome_describe henc hpath hanswer]
    exact hrun
  · have hrecords : s.log.reverse =
        .answered (trim (describeLine e t.path)) cseq.toNat (.described id sdp) :: rs := by
      rw [hlog, List.reverse_append, List.reverse_reverse]
      rfl
    rw [hrecords, process_records henc hdec hby hwait hsent (by omega) _ _ hsdp, htold, hlast]

end told

end RtspClient

end Aes67Daemon
