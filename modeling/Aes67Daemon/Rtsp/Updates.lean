import Aes67Daemon.Mdns.Browse

/-!
# The updates of a description

After the answer to `DESCRIBE` an RTSP client waits for requests of the server.  An `ANNOUNCE`
brings a new description, which is reported under the name that is in its URL, or under the
subject of the description, or under the name of the service.  The URL that says whether there
is a name is that of the `DESCRIBE`; the name is cut out of that of the `ANNOUNCE`.

## Main definitions

* `RtspClient.onRequest`, `RtspClient.onResponse` — a request line, and what comes with it.
* `RtspClient.Attributed` — a description is reported under the right name.
* `RtspClient.attributed_iff` — when it is.
-/
namespace Aes67Daemon

open Text

namespace RtspClient

/-- The start of the path of a source that is asked for by its name. -/
def byNamePrefix : Text := "/by-name/".toList

/-- The media type of a description. -/
def sdpType : Text := "application/sdp".toList

/-- `RtspResponse`, with the members that are read of what comes with a request. -/
structure RtspResponse where
  contentType : Text := []
  body : Text := []

/-- The URL of a request line, if it is an `ANNOUNCE`. -/
def announceUrl? (line : Text) : Option Text :=
  match splitBy (· = ' ') (trim line) with
  | verb :: url :: _ => if verb = "ANNOUNCE".toList then some url else none
  | _ => none

/-- `is_announce` and `announced_name` after a request line; `none` is an exception. -/
def onRequest (decodeUrl : Text → Text) (path line : Text) : Option (Bool × Text) :=
  match announceUrl? line with
  | none => some (false, [])
  | some url =>
    (parseUrl (decodeUrl url)).bind fun u =>
      if u.ok then
        -- the path of the `DESCRIBE` is tested, the one of the `ANNOUNCE` is cut
        if byNamePrefix <:+: path then
          if u.path.length < 9 then none else some (true, u.path.drop 9)
        else some (true, [])
      else some (true, [])

/-- The name under which a response is reported, if it is. -/
def onResponse (name : Text) (isAnnounce : Bool) (announcedName : Text) (res : RtspResponse) : Option Text :=
  if res.contentType ≠ [] ∧ ¬ sdpType <+: res.contentType then none
  else if isAnnounce then
    let announcedName := if announcedName = [] then sdpGetSubject res.body else announcedName
    some (if announcedName = [] then name else announcedName)
  else none

/-- One round of the loop that waits for updates: a request line and what comes with it.
`none` is an exception, which ends the session. -/
def updateRound (decodeUrl : Text → Text) (name path line : Text) (res : RtspResponse) : Option (Option Text) :=
  (onRequest decodeUrl path line).map fun r => onResponse name r.1 r.2 res

/-! ## The name of a description -/

/-- The name that comes from the description, or from the service. -/
def fallbackName (name sdp : Text) : Text := if sdpGetSubject sdp = [] then name else sdpGetSubject sdp

/-- The name of an announced description: what follows the prefix in the URL, if it is there. -/
def rightName (name : Text) (u : ParsedUrl) (sdp : Text) : Text :=
  if u.ok ∧ byNamePrefix <+: u.path then u.path.drop byNamePrefix.length else fallbackName name sdp

/-- **Every announced description is reported under the right name**, and no URL ends the
session. -/
def Attributed (decodeUrl : Text → Text) (name path line : Text) : Prop :=
  ∀ url ∈ announceUrl? line, ∃ u, parseUrl (decodeUrl url) = some u ∧
    ∀ res : RtspResponse, sdpType <+: res.contentType →
      updateRound decodeUrl name path line res = some (some (rightName name u res.body))

/-- The URL can be taken apart, and names a source if the `DESCRIBE` was by name, and only then;
or what is cut out of it is empty. -/
def NamesAlike (decodeUrl : Text → Text) (path line : Text) : Prop :=
  ∀ url ∈ announceUrl? line, ∃ u, parseUrl (decodeUrl url) = some u ∧ (u.ok = true →
    if byNamePrefix <:+: path then
      (byNamePrefix <+: u.path ∧ byNamePrefix.length < u.path.length) ∨
        (¬ byNamePrefix <+: u.path ∧ u.path.length = byNamePrefix.length)
    else ¬ byNamePrefix <+: u.path)

/-- A description with a subject of one letter. -/
def letterSdp (c : Char) : Text := ['s', '=', c]

/-- No name is that of every description. -/
theorem exists_subject_ne (n : Text) : ∃ sdp, sdpGetSubject sdp ≠ [] ∧ sdpGetSubject sdp ≠ n := by
  have ha : sdpGetSubject (letterSdp 'a') = ['a'] := by decide
  have hb : sdpGetSubject (letterSdp 'b') = ['b'] := by decide
  by_cases hn : n = ['a']
  · refine ⟨letterSdp 'b', ?_⟩
    rw [hb, hn]
    decide
  · refine ⟨letterSdp 'a', ?_⟩
    rw [ha]
    exact ⟨List.cons_ne_nil _ _, Ne.symm hn⟩

/-- The response with a description. -/
def sdpResponse (sdp : Text) : RtspResponse := { contentType := sdpType, body := sdp }

theorem isSdp_sdpResponse (sdp : Text) : sdpType <+: (sdpResponse sdp).contentType := List.prefix_rfl

/-- An announced description is reported under the name that was cut out, or else under the
fallback. -/
theorem onResponse_announce {name announcedName : Text} {res : RtspResponse}
    (h : sdpType <+: res.contentType) :
    onResponse name true announcedName res =
      some (if announcedName = [] then fallbackName name res.body else announcedName) := by
  have hsdp : ¬ (res.contentType ≠ [] ∧ ¬ sdpType <+: res.contentType) := fun hno => hno.2 h
  rw [onResponse, if_neg hsdp, if_pos rfl, fallbackName]
  by_cases hname : announcedName = []
  · simp only [hname, if_true]
  · simp only [hname, if_false]

/-- What is reported of an announced description, with the name that was cut out. -/
theorem reported_iff {name announcedName : Text} {u : ParsedUrl} :
    (∀ res : RtspResponse, sdpType <+: res.contentType →
      onResponse name true announcedName res = some (rightName name u res.body)) ↔
    if u.ok ∧ byNamePrefix <+: u.path then
      announcedName ≠ [] ∧ announcedName = u.path.drop byNamePrefix.length
    else announcedName = [] := by
  constructor
  · intro h
    obtain ⟨sdp, hsubject, hne⟩ := exists_subject_ne
      (if announcedName = [] then u.path.drop byNamePrefix.length else announcedName)
    have hfallback : fallbackName name sdp = sdpGetSubject sdp := if_neg hsubject
    have htold := h (sdpResponse sdp) (isSdp_sdpResponse sdp)
    rw [onResponse_announce (isSdp_sdpResponse sdp), Option.some.injEq, rightName, sdpResponse, hfallback] at htold
    split
    · rename_i hright
      rw [if_pos hright] at htold
      by_cases hnil : announcedName = []
      · rw [if_pos hnil] at htold hne
        exact absurd htold hne
      · rw [if_neg hnil] at htold
        exact ⟨hnil, htold⟩
    · rename_i hright
      rw [if_neg hright] at htold
      by_contra hnil
      rw [if_neg hnil] at htold hne
      exact hne htold.symm
  · intro h res hres
    rw [onResponse_announce hres, rightName]
    split at h
    · rename_i hright
      rw [if_pos hright, if_neg h.1, h.2]
    · rename_i hright
      rw [if_neg hright, if_pos h]

/-- An `ANNOUNCE` whose URL can be taken apart. -/
theorem onRequest_announce {decodeUrl : Text → Text} {path line url : Text} {u : ParsedUrl}
    (hurl : announceUrl? line = some url) (hu : parseUrl (decodeUrl url) = some u) :
    onRequest decodeUrl path line =
      if u.ok ∧ byNamePrefix <:+: path then
        if u.path.length < 9 then none else some (true, u.path.drop 9)
      else some (true, []) := by
  rw [onRequest, hurl]
  dsimp only
  rw [hu, Option.bind_some]
  cases hok : u.ok with
  | false => simp
  | true => simp

/-- The name that is cut out is the right one. -/
theorem cutName_iff {u : ParsedUrl} {path : Text} : (∃ announcedName,
      (if u.ok ∧ byNamePrefix <:+: path then
        if u.path.length < 9 then none else some (true, u.path.drop 9)
      else some (true, [])) = some (true, announcedName) ∧
        if u.ok ∧ byNamePrefix <+: u.path then
          announcedName ≠ [] ∧ announcedName = u.path.drop byNamePrefix.length
        else announcedName = []) ↔
    (u.ok = true →
      if byNamePrefix <:+: path then
        (byNamePrefix <+: u.path ∧ byNamePrefix.length < u.path.length) ∨
          (¬ byNamePrefix <+: u.path ∧ u.path.length = byNamePrefix.length)
      else ¬ byNamePrefix <+: u.path) := by
  have hnine : byNamePrefix.length = 9 := by decide
  rw [hnine]
  cases hok : u.ok with
  | false => simp
  | true =>
      by_cases hpath : byNamePrefix <:+: path
      · by_cases hprefix : byNamePrefix <+: u.path
        · have hlength := hprefix.length_le
          rw [hnine] at hlength
          simp [hpath, hprefix, not_lt.mpr hlength]
        · simp [hpath, hprefix]
          omega
      · simp [hpath]

/-- **When descriptions are reported under the right name.** -/
theorem attributed_iff (decodeUrl : Text → Text) (name path line : Text) :
    Attributed decodeUrl name path line ↔ NamesAlike decodeUrl path line := by
  refine forall₂_congr fun url hurl => exists_congr fun u => and_congr_right fun hu => ?_
  rw [← cutName_iff, ← onRequest_announce hurl hu]
  constructor
  · intro h
    have hsome := h (sdpResponse []) (isSdp_sdpResponse [])
    obtain ⟨⟨isAnnounce, announcedName⟩, hreq, -⟩ := Option.map_eq_some_iff.mp hsome
    obtain rfl : isAnnounce = true := by
      rw [onRequest_announce hurl hu] at hreq
      split at hreq
      · split at hreq <;> cases hreq
        rfl
      · cases hreq
        rfl
    have hreported : ∀ res : RtspResponse, sdpType <+: res.contentType →
        onResponse name true announcedName res = some (rightName name u res.body) := by
      intro res hres
      have htold := h res hres
      rw [updateRound, hreq] at htold
      exact Option.some.inj htold
    exact ⟨announcedName, hreq, reported_iff.mp hreported⟩
  · rintro ⟨announcedName, hreq, hname⟩ res hres
    rw [updateRound, hreq]
    exact congrArg some (reported_iff.mpr hname res hres)

/-- The URL of an `ANNOUNCE` that is not by name. -/
def plainAnnounce : Text := "ANNOUNCE rtsp://10.0.0.1/stream1234 RTSP/1.0".toList

/-- The name is cut out of the middle of a path. -/
theorem plainAnnounce_misattributed :
    ¬ Attributed (fun t => t) "a".toList "/by-name/a".toList plainAnnounce := by
  intro h
  have hurl : announceUrl? plainAnnounce = some "rtsp://10.0.0.1/stream1234".toList := by decide +kernel
  obtain ⟨u, hu, hall⟩ := h _ hurl
  have hu' : parseUrl "rtsp://10.0.0.1/stream1234".toList =
      some ⟨true, "rtsp".toList, "10.0.0.1".toList, [], "/stream1234".toList⟩ := by decide +kernel
  obtain rfl := Option.some.inj (hu'.symm.trans hu)
  have htold := hall (sdpResponse "s=b".toList) (isSdp_sdpResponse _)
  have hround : updateRound (fun t => t) "a".toList "/by-name/a".toList plainAnnounce
      (sdpResponse "s=b".toList) = some (some "34".toList) := by decide +kernel
  have hright : rightName "a".toList ⟨true, "rtsp".toList, "10.0.0.1".toList, [], "/stream1234".toList⟩
      (sdpResponse "s=b".toList).body = "b".toList := by decide +kernel
  rw [hround, hright] at htold
  revert htold
  decide

/-! ## Tasks -/

/-- The tasks of the browser ask for a source by its name. -/
theorem onRequest_byName {decodeUrl : Text → Text} {path line : Text} (hpath : byNamePrefix <:+: path) :
    onRequest decodeUrl path line =
      (announceOf decodeUrl line).map fun announced => (announced.isSome, announced.getD []) := by
  rw [onRequest, announceOf, announceUrl?]
  cases splitBy (· = ' ') (trim line) with
  | nil => rfl
  | cons verb fields =>
      cases fields with
      | nil => rfl
      | cons url fields =>
          by_cases hverb : verb = "ANNOUNCE".toList
          · simp only [hverb, if_true]
            cases parseUrl (decodeUrl url) with
            | none => rfl
            | some u =>
                rw [Option.bind_some, if_pos hpath]
                dsimp only
                by_cases hok : u.ok = true
                · rw [if_pos hok, if_pos hok]
                  split <;> rfl
                · rw [if_neg hok, if_neg hok]
                  rfl
          · simp only [hverb, if_false]
            rfl

/-- What a task calls back with. -/
theorem onResponse_toldName (t : RtspTask) (announcedName sdp : Text) :
    onResponse t.name true announcedName (sdpResponse sdp) =
      some (MDNSBrowse.toldName t (if announcedName = [] then sdpGetSubject sdp else announcedName)) := by
  rw [onResponse, if_neg fun h => h.2 (isSdp_sdpResponse sdp), if_pos rfl]
  rfl

end RtspClient
end Aes67Daemon
