import Aes67Daemon.Lib.JsonValue
import Aes67Daemon.Nmos.Manager
import Aes67Daemon.Nmos.QueryText

/-!
# The SDP of a remote sender

The registry has the URL of a sender's SDP as a member of a JSON text.  The URL is cut from the
text where one spelling of the member stands, and then cut at the first slash and colon.

## Main definitions

* `HttpUrl` — the URLs that a sender may have.
* `NmosEnv.Resolves` — the SDP is asked for at the URL.
* `NmosEnv.resolved_iff` — when it is.
* `SenderDoc.not_spells_json` — the text of the daemon for its own senders is not read.
-/
namespace Aes67Daemon

open Text

/-! ## URLs -/

/-- The characters of a URL. -/
def isUrlChar (c : Char) : Bool :=
  c.isAlphanum || c ∈ ['-', '.', '_', '~', ':', '/', '?', '#', '[', ']', '@', '!', '$', '&', '\x27', '(', ')', '*', '+',
    ',', ';', '=', '%']

/-- `http://host[:port]/path`.  A colon in the host is one of an IPv6 address in brackets. -/
structure HttpUrl where
  host : Text
  port : Option Text
  path : Text
  host_ne_nil : host ≠ []
  host_chars : ∀ c ∈ host, isUrlChar c = true ∧ c ∉ ['/', '?', '#', '@']
  host_colon : ':' ∈ host → ∃ address, host = '[' :: (address ++ [']'])
  port_digits : ∀ p ∈ port, p ≠ [] ∧ ∀ c ∈ p, c.isDigit = true
  path_slash : ∃ rest, path = '/' :: rest
  path_chars : ∀ c ∈ path, isUrlChar c = true

namespace HttpUrl

variable {url : HttpUrl}

/-- The host and the port, if there is one. -/
def authority (url : HttpUrl) : Text := url.host ++ url.port.elim [] (':' :: ·)

/-- The text of a URL. -/
def text (url : HttpUrl) : Text := "http://".toList ++ url.authority ++ url.path

theorem text_eq (url : HttpUrl) : url.text = "http://".toList ++ (url.authority ++ url.path) :=
  List.append_assoc _ _ _

/-- The port of a URL; 80 when it has none. -/
def portNumber (url : HttpUrl) : ℕ := url.port.elim 80 digitsValue

theorem isUrlChar_of_isDigit {c : Char} (h : c.isDigit = true) : isUrlChar c = true := by
  simp [isUrlChar, Char.isAlphanum, h]

theorem notMem_host {c : Char} (h : isUrlChar c = false ∨ c ∈ ['/', '?', '#', '@']) : c ∉ url.host := by
  intro hc
  obtain ⟨hurl, hother⟩ := url.host_chars c hc
  rcases h with h | h
  · exact absurd hurl (by simp [h])
  · exact hother h

theorem notMem_path {c : Char} (h : isUrlChar c = false) : c ∉ url.path :=
  fun hc => absurd (url.path_chars c hc) (by simp [h])

theorem slash_notMem_authority (url : HttpUrl) : '/' ∉ url.authority := by
  rw [authority, List.mem_append, not_or]
  refine ⟨notMem_host (.inr (by decide)), ?_⟩
  cases hport : url.port with
  | none => exact List.not_mem_nil
  | some p =>
    obtain ⟨-, hdigits⟩ := url.port_digits p hport
    intro hslash
    rcases List.mem_cons.mp hslash with heq | hslash
    · cases heq
    · exact absurd (hdigits _ hslash) (by decide)

/-- A URL has the characters of URLs. -/
theorem text_chars (url : HttpUrl) : ∀ c ∈ url.text, isUrlChar c = true := by
  intro c hc
  simp only [text_eq, authority, List.mem_append] at hc
  rcases hc with hc | (hc | hc) | hc
  · exact List.all_eq_true.mp (by decide +kernel : ("http://".toList.all isUrlChar) = true) c hc
  · exact (url.host_chars c hc).1
  · cases hport : url.port with
    | none => simp [hport] at hc
    | some p =>
      rw [hport] at hc
      rcases List.mem_cons.mp hc with rfl | hc
      · decide
      · exact isUrlChar_of_isDigit ((url.port_digits p hport).2 c hc)
  · exact url.path_chars c hc

theorem quote_notMem_text (url : HttpUrl) : '"' ∉ url.text :=
  fun hc => absurd (url.text_chars _ hc) (by decide)

theorem text_ne_nil (url : HttpUrl) : url.text ≠ [] := by
  intro heq
  have hlen := congrArg List.length heq
  simp [text_eq] at hlen

theorem upToNul_host (url : HttpUrl) : upToNul url.host = url.host :=
  upToNul_eq_self_iff.mpr (notMem_host (.inl (by decide)))

theorem upToNul_path (url : HttpUrl) : upToNul url.path = url.path :=
  upToNul_eq_self_iff.mpr (notMem_path (by decide +kernel))

end HttpUrl

/-! ## The cuts -/

/-- What the member begins with, as it is looked for. -/
def hrefWords : Text := "\"manifest_href\":\"".toList

/-- The first place in the text that has the words goes on with the URL and a quote. -/
def Spells (body : Text) (url : HttpUrl) : Prop :=
  ∃ pre post, body = pre ++ (hrefWords ++ (url.text ++ '"' :: post)) ∧
    ∀ a b, body = a ++ (hrefWords ++ b) → pre.length ≤ a.length

/-- The text is JSON, with the URL as its `manifest_href`. -/
def HasManifestHref (body : Text) (url : HttpUrl) : Prop :=
  (Json.read body).bind (·.child? "manifest_href".toList) = some (.leaf url.text)

/-- The search finds the URL where the text spells it. -/
theorem spells_iff {body : Text} {url : HttpUrl} : Spells body url ↔
    ∃ pos, seek hrefWords body = some pos ∧
      ((breakAt '"' (pos.drop hrefWords.length)).map Prod.fst).getD [] = url.text := by
  constructor
  · rintro ⟨pre, post, heq, hfirst⟩
    refine ⟨hrefWords ++ (url.text ++ '"' :: post), seek_eq_some_iff.mpr ⟨pre, heq, List.prefix_append _ _, hfirst⟩, ?_⟩
    rw [List.drop_left, breakAt_append url.quote_notMem_text]
    rfl
  · rintro ⟨pos, hseek, hcut⟩
    obtain ⟨pre, heq, ⟨rest, rfl⟩, hfirst⟩ := seek_eq_some_iff.mp hseek
    rw [List.drop_left] at hcut
    cases hbreak : breakAt '"' rest with
    | none =>
      rw [hbreak] at hcut
      exact absurd hcut.symm url.text_ne_nil
    | some cut =>
      obtain ⟨href, post⟩ := cut
      rw [hbreak] at hcut
      obtain rfl : href = url.text := hcut
      exact ⟨pre, post, by rw [heq, breakAt_eq_some hbreak], hfirst⟩

/-- Host, port and path of a URL are cut from it where the host has no colon. -/
theorem trimHttp_text (url : HttpUrl) : trimHttp url.text =
    match breakAt ':' url.authority with
    | some (host, port) => (host, ((stoi port).map UInt16.ofInt).getD 80, url.path)
    | none => (url.authority, 80, url.path) := by
  obtain ⟨rest, hrest⟩ := url.path_slash
  have htake : url.text.take 7 = "http://".toList := by
    rw [HttpUrl.text_eq]
    exact List.take_left' (by decide)
  have hdrop : url.text.drop 7 = url.authority ++ url.path := by
    rw [HttpUrl.text_eq]
    exact List.drop_left' (by decide)
  have hslash : '/' ∈ url.authority ++ url.path := by simp [hrest]
  have hall : ∀ c ∈ url.authority, decide (c ≠ '/') = true :=
    fun c hc => decide_eq_true fun heq => url.slash_notMem_authority (heq ▸ hc)
  have htakeWhile : (url.authority ++ url.path).takeWhile (· ≠ '/') = url.authority := by
    rw [List.takeWhile_append_of_pos hall, hrest]
    simp
  have hdropWhile : (url.authority ++ url.path).dropWhile (· ≠ '/') = url.path := by
    rw [List.dropWhile_append_of_pos hall, hrest]
    simp
  cases hcolon : breakAt ':' url.authority with
  | none => rw [trimHttp, if_pos htake, hdrop, htakeWhile, hcolon, if_pos hslash, hdropWhile]
  | some cut => rw [trimHttp, if_pos htake, hdrop, htakeWhile, hcolon, if_pos hslash, hdropWhile]

/-- The port after a colon is read up to what an `int` holds, and kept modulo 65536. -/
theorem toNat_stoi_digits {p : Text} (hne : p ≠ []) (hdigits : ∀ c ∈ p, c.isDigit = true) :
    (((stoi p).map UInt16.ofInt).getD 80).toNat = digitsValue p ↔ digitsValue p ≤ 65535 := by
  rw [stoi, readInt_digits hne hdigits]
  simp only [Option.bind_some, Bool.false_eq_true, if_false]
  generalize digitsValue p = n
  split
  · have hmod := toNat_uint16_ofInt n
    simp only [Option.map_some, Option.getD_some]
    omega
  · rename_i hbig
    refine iff_of_false (fun heq => ?_) (by omega)
    have h80 : 80 = n := heq
    omega

/-- **A URL is cut as it is made exactly when the host has no colon and the port is one.** -/
theorem trimHttp_text_iff (url : HttpUrl) :
    (upToNul (trimHttp url.text).1, (trimHttp url.text).2.1.toNat, upToNul (trimHttp url.text).2.2) =
      (url.host, url.portNumber, url.path) ↔ ':' ∉ url.host ∧ url.portNumber ≤ 65535 := by
  rw [trimHttp_text]
  by_cases hcolon : ':' ∈ url.host
  · obtain ⟨a, b, hhost, ha⟩ := List.eq_append_cons_of_mem hcolon
    have hauthority : url.authority = a ++ ':' :: (b ++ url.port.elim [] (':' :: ·)) := by
      rw [HttpUrl.authority, hhost, List.append_assoc, List.cons_append]
    rw [hauthority, breakAt_append ha]
    refine iff_of_false (fun heq => ?_) fun h => h.1 hcolon
    have hcut : upToNul a = url.host := congrArg Prod.fst heq
    exact ha ((List.takeWhile_prefix _).subset (hcut ▸ hcolon))
  · cases hport : url.port with
    | none =>
      have hauthority : url.authority = url.host := by rw [HttpUrl.authority, hport, Option.elim_none, List.append_nil]
      have hnumber : url.portNumber = 80 := by rw [HttpUrl.portNumber, hport, Option.elim_none]
      rw [hauthority, breakAt_of_notMem hcolon, hnumber]
      refine iff_of_true ?_ ⟨hcolon, by decide⟩
      simp only [url.upToNul_host, url.upToNul_path]
      rfl
    | some p =>
      obtain ⟨hne, hdigits⟩ := url.port_digits p hport
      have hauthority : url.authority = url.host ++ ':' :: p := by rw [HttpUrl.authority, hport, Option.elim_some]
      have hnumber : url.portNumber = digitsValue p := by rw [HttpUrl.portNumber, hport, Option.elim_some]
      rw [hauthority, breakAt_append hcolon, hnumber, ← toNat_stoi_digits hne hdigits]
      simp only [url.upToNul_host, url.upToNul_path, Prod.mk.injEq, true_and, and_true, hcolon, not_false_eq_true]

/-! ## The requests -/

namespace NmosEnv

variable {e : NmosEnv} {senderUuid : Text}

/-- What the registry answers about a sender. -/
def senderAnswer (e : NmosEnv) (senderUuid : Text) : Option (ℕ × Text) :=
  e.get e.registryAddress e.registryQueryPort ("/x-nmos/query/v1.3/senders/".toList ++ senderUuid)

/-- The request for the SDP, if there is one: host, port and path. -/
def manifestRequest (e : NmosEnv) (senderUuid : Text) : Option (Text × ℕ × Text) :=
  let href := e.manifestHref senderUuid
  if href = [] then none
  else
    let (host, port, path) := trimHttp href
    some (upToNul host, port.toNat, upToNul path)

/-- The SDP is what is answered to this request. -/
theorem fetchRemoteSenderSdp_eq (e : NmosEnv) (senderUuid : Text) : e.fetchRemoteSenderSdp senderUuid =
    match (e.manifestRequest senderUuid).bind fun r => e.env.httpGet r.1 r.2.1 r.2.2 with
    | some (status, body) => if status = 200 ∨ status = 206 then body else []
    | none => [] := by
  unfold fetchRemoteSenderSdp manifestRequest
  dsimp only
  split
  · rfl
  · rfl

/-- The URL is found, and the SDP is asked for at its host, port and path. -/
structure Resolves (e : NmosEnv) (senderUuid : Text) (url : HttpUrl) : Prop where
  href : e.manifestHref senderUuid = url.text
  request : e.manifestRequest senderUuid = some (url.host, url.portNumber, url.path)

/-- What a text of the registry and its URL have to be like. -/
structure Readable (body : Text) (url : HttpUrl) : Prop where
  /-- No blank at the colon, no escape in the name or the URL, and no such words before them. -/
  spells : Spells body url
  /-- The host is not an IPv6 address. -/
  host : ':' ∉ url.host
  port : url.portNumber ≤ 65535

theorem manifestHref_eq {body : Text} (h : e.senderAnswer senderUuid = some (200, body)) :
    e.manifestHref senderUuid =
      ((seek hrefWords body).map fun pos => ((breakAt '"' (pos.drop hrefWords.length)).map Prod.fst).getD []).getD [] := by
  unfold senderAnswer at h
  unfold manifestHref
  rw [h]
  cases hseek : seek hrefWords body with
  | none =>
    unfold hrefWords at hseek
    simp only [hseek]
    rfl
  | some pos =>
    unfold hrefWords at hseek
    simp only [hseek]
    rfl

theorem manifestHref_eq_iff {body : Text} {url : HttpUrl} (h : e.senderAnswer senderUuid = some (200, body)) :
    e.manifestHref senderUuid = url.text ↔ Spells body url := by
  rw [manifestHref_eq h, spells_iff]
  cases seek hrefWords body with
  | none => simp [url.text_ne_nil.symm]
  | some pos => simp

theorem resolves_iff {body : Text} {url : HttpUrl} (h : e.senderAnswer senderUuid = some (200, body)) :
    e.Resolves senderUuid url ↔ Readable body url := by
  have hcut (hhref : e.manifestHref senderUuid = url.text) :
      e.manifestRequest senderUuid = some (url.host, url.portNumber, url.path) ↔
        ':' ∉ url.host ∧ url.portNumber ≤ 65535 := by
    rw [← trimHttp_text_iff, manifestRequest, hhref, if_neg url.text_ne_nil]
    exact Option.some_inj
  constructor
  · rintro ⟨hhref, hrequest⟩
    obtain ⟨hhost, hport⟩ := (hcut hhref).mp hrequest
    exact ⟨(manifestHref_eq_iff h).mp hhref, hhost, hport⟩
  · rintro ⟨hspells, hhost, hport⟩
    have hhref := (manifestHref_eq_iff h).mpr hspells
    exact ⟨hhref, (hcut hhref).mpr ⟨hhost, hport⟩⟩

/-- Whatever JSON text the registry has for a sender, its URL is found and asked. -/
def Resolved (e : NmosEnv) (senderUuid : Text) : Prop :=
  ∀ body url, e.senderAnswer senderUuid = some (200, body) → HasManifestHref body url → e.Resolves senderUuid url

/-- **The SDP of a sender is asked for where its JSON text says exactly when the text is readable in
the one way the search knows.** -/
theorem resolved_iff (e : NmosEnv) (senderUuid : Text) : e.Resolved senderUuid ↔
    ∀ body url, e.senderAnswer senderUuid = some (200, body) → HasManifestHref body url → Readable body url :=
  forall_congr' fun _ => forall_congr' fun _ => forall_congr' fun h => forall_congr' fun _ => resolves_iff h

end NmosEnv

/-! ## The text of the daemon -/

/-- No string is followed by a colon alone, or by the name of the member. -/
def Blanked (us : List (Text × Text)) : Prop := ∀ u ∈ us, u.2 ≠ ":".toList ∧ u.2 ≠ "manifest_href".toList

instance (us : List (Text × Text)) : Decidable (Blanked us) := inferInstanceAs (Decidable (∀ u ∈ us, _))

theorem Blanked.append {us us' : List (Text × Text)} (h : Blanked us) (h' : Blanked us') : Blanked (us ++ us') :=
  List.forall_mem_append.mpr ⟨h, h'⟩

theorem Blanked.cons {a b : Text} {us : List (Text × Text)} (hb : b ≠ ":".toList ∧ b ≠ "manifest_href".toList)
    (h : Blanked us) : Blanked ((a, b) :: us) :=
  List.forall_mem_cons.mpr ⟨hb, h⟩

theorem blanked_nil : Blanked [] := fun _ hu => absurd hu List.not_mem_nil

theorem blanked_stringMember (key : String) (value : Text) : Blanked (stringMember key value) :=
  .cons (by decide) (.cons (by decide) blanked_nil)

theorem blanked_bindingsMember (bs : List Text) : Blanked (bindingsMember bs) := by
  have hall : ∀ bs : List Text, Blanked (bindingNames bs) := by
    intro bs
    induction bs with
    | nil => exact blanked_nil
    | cons b bs ih =>
      cases bs with
      | nil => exact .cons (by decide) blanked_nil
      | cons b' bs => exact .cons (by decide) ih
  unfold bindingsMember
  split
  · exact .cons (by decide) blanked_nil
  · exact .cons (by decide) (hall bs)

theorem blanked_subscriptionMember (key : String) (peerId : Text) (active : Bool) :
    Blanked (subscriptionMember key peerId active) := by
  have hactive : Blanked [("active".toList, ": ".toList ++ boolText active ++ "\x7d\n\x7d".toList)] := by
    cases active <;> decide
  unfold subscriptionMember
  refine Blanked.append (.cons (by decide) ?_) hactive
  split
  · exact .cons (by decide) blanked_nil
  · exact .cons (by decide) (.cons (by decide) blanked_nil)

namespace SenderDoc

variable {d : SenderDoc}

theorem blanked_members (d : SenderDoc) : Blanked d.members := by
  have hhead : Blanked (headMembers d.id d.version d.label) :=
    (((blanked_stringMember _ _).append (blanked_stringMember _ _)).append (blanked_stringMember _ _)).append
      (blanked_stringMember _ _)
  exact ((((((hhead.append (by decide)).append (blanked_stringMember _ _)).append (blanked_stringMember _ _)).append
    (blanked_stringMember _ _)).append (blanked_stringMember _ _)).append (blanked_bindingsMember _)).append
    (blanked_subscriptionMember _ _ _)

/-- **The text of the daemon for a sender has a blank behind every colon, and is never read.** -/
theorem not_spells_json (h : ∀ t ∈ d.texts, '"' ∉ t) (url : HttpUrl) : ¬ Spells d.json url := by
  rintro ⟨pre, post, heq, -⟩
  have hmembers : ∀ u ∈ d.members, '"' ∉ u.1 ∧ '"' ∉ u.2 ∧ u.2 ≠ "manifest_href".toList :=
    fun u hu => ⟨(tame_members h u hu).1, (tame_members h u hu).2.1, (d.blanked_members u hu).2⟩
  have hwords : '"' :: ("manifest_href".toList ++ '"' :: (":".toList ++ '"' :: [])) <:+: d.json :=
    ⟨pre, url.text ++ '"' :: post, by rw [heq, List.append_assoc]; rfl⟩
  have hopen : '"' ∉ "\x7b\n  ".toList := by decide
  rw [json, documentText, cons_infix_append_iff hopen, words_infix_iff (by decide) (by decide) hmembers] at hwords
  obtain ⟨a, u, b, hus, -⟩ := hwords
  exact (d.blanked_members ("manifest_href".toList, ":".toList) (by simp [hus])).1 rfl

end SenderDoc

theorem hasManifestHref_of_data {body : Text} {url : HttpUrl}
    (h : ((Json.read body).bind (·.child? "manifest_href".toList)).map (fun t => (t.data, t.children.length)) =
      some (url.text, 0)) : HasManifestHref body url := by
  obtain ⟨⟨data, children⟩, htree, hdata⟩ := Option.map_eq_some_iff.mp h
  obtain ⟨rfl, hlen⟩ := Prod.mk.inj hdata
  obtain rfl : children = [] := List.length_eq_zero_iff.mp hlen
  exact htree

/-- The URL of a sender on the daemon. -/
def ownUrl : HttpUrl where
  host := "192.168.1.100".toList
  port := some "3212".toList
  path := "/x-manifest/senders/s/manifest".toList
  host_ne_nil := by decide
  host_chars := List.forall_iff_forall_mem.mp (by decide)
  host_colon := fun h => absurd h (by decide +kernel)
  port_digits := fun p hp => by
    obtain rfl := Option.some.inj hp
    exact ⟨by decide, List.forall_iff_forall_mem.mp (by decide)⟩
  path_slash := ⟨"x-manifest/senders/s/manifest".toList, by decide +kernel⟩
  path_chars := List.forall_iff_forall_mem.mp (by decide)

/-- A sender of the daemon. -/
def ownSender : SenderDoc := NmosHost.buildSenderJson {} "0:0".toList { map := [0, 1] } "f".toList "s".toList []

/-- A daemon does not find the SDP of a sender that is registered in its own words. -/
theorem NmosEnv.own_sender_not_resolved : ¬ ∀ (e : NmosEnv) (senderUuid : Text), e.Resolved senderUuid := by
  intro H
  have hjson : HasManifestHref ownSender.json ownUrl := hasManifestHref_of_data (by decide +kernel)
  have hresolves := H { env := { httpGet := fun _ _ _ => some (200, ownSender.json) } } "s".toList _ ownUrl rfl hjson
  have hnone : seek hrefWords ownSender.json = none := by decide +kernel
  have hspells := (NmosEnv.manifestHref_eq_iff rfl).mp hresolves.href
  obtain ⟨pos, hpos, -⟩ := spells_iff.mp hspells
  rw [hnone] at hpos
  cases hpos

end Aes67Daemon
