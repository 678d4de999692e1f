import Aes67Daemon.Nmos.StagedText

/-!
# What is shown is what is stored

The texts of a half come from the bodies of PATCH requests, from the SDPs of streams
and senders, and from the addresses of the interfaces.  As long as those that are taken
over need no escape, none that is stored does, and the Connection API shows every half
as it is stored.

## Main definitions

* `NmosManager.PlainState` — no text of a half needs an escape.
* `Op.Plain`, `Op.ReadsPlain` — nor do those a thread holds, and those a step takes over.
* `NmosManager.ShowsStored` — every half is read back from what is shown.
* `System.showsStored_run` — what is shown in a run.
-/
namespace Aes67Daemon

open Text

/-! ## Texts that need no escape -/

theorem plainText_nil : PlainText [] := ⟨by simp, rfl⟩

theorem plainText_of_ascii {t : Text} (h : ∀ c ∈ t, Json.plain c = true ∧ c.toNat < 0x80) : PlainText t :=
  ⟨fun c hc => (h c hc).1, Json.isUtf8_of_ascii fun c hc => (h c hc).2⟩

theorem PlainText.append {t u : Text} (ht : PlainText t) (hu : PlainText u) : PlainText (t ++ u) :=
  ⟨fun c hc => (List.mem_append.mp hc).elim (ht.1 c) (hu.1 c), Json.isUtf8_append ht.2 hu.2⟩

theorem plainText_ofNat (n : ℕ) : PlainText (ofNat n) := by
  refine plainText_of_ascii fun c hc => ?_
  have hdigit := digits_isDigit hc
  rw [Char.isDigit_iff_toNat] at hdigit
  have hzero : '0'.toNat = 0x30 := rfl
  have hnine : '9'.toNat = 0x39 := rfl
  refine ⟨?_, by omega⟩
  have hquote : c ≠ '"' := by
    rintro rfl
    revert hdigit
    decide
  have hslash : c ≠ '\\' := by
    rintro rfl
    revert hdigit
    decide
  simp only [Json.plain, Bool.and_eq_true, decide_eq_true_eq, bne_iff_ne]
  exact ⟨⟨by omega, hquote⟩, hslash⟩

/-- Numbers with a character between them. -/
theorem plainText_cons {c : Char} (hc : Json.plain c = true ∧ c.toNat < 0x80) {t : Text} (ht : PlainText t) :
    PlainText (c :: t) :=
  PlainText.append (t := [c]) (plainText_of_ascii (by simpa using hc)) ht

theorem plainText_toText (a : UInt32) : PlainText (Address.toText a) := by
  rw [Address.toText]
  exact (plainText_ofNat _).append (plainText_cons (by decide) ((plainText_ofNat _).append
    (plainText_cons (by decide) ((plainText_ofNat _).append (plainText_cons (by decide) (plainText_ofNat _))))))

theorem plainText_ipText (ip : Option UInt32) : PlainText (ipText ip) := by
  cases ip with
  | none => exact plainText_nil
  | some a => exact plainText_toText a

theorem plainSetting_nil : PlainSetting [] := ⟨plainText_nil, by decide⟩

theorem plainSetting_makeVersion (e : NmosEnv) : PlainSetting e.makeVersion := by
  refine ⟨(plainText_ofNat _).append (plainText_cons (by decide) (plainText_ofNat _)), fun heq => ?_⟩
  have hcolon : ':' ∈ e.makeVersion := List.mem_append_right _ List.mem_cons_self
  rw [heq] at hcolon
  revert hcolon
  decide

/-- What is stored for a text of a PATCH is never the text of `null`. -/
theorem plainSetting_nullable {t : Text} (ht : PlainText t) : PlainSetting (nullable t) := by
  rw [nullable]
  split
  · exact plainSetting_nil
  · rename_i hne
    exact ⟨ht, hne⟩

/-! ## Legs -/

/-- The addresses of a leg in an SDP that a receiver takes over. -/
def PlainLeg (sdp : Text) (leg : ℕ) : Prop :=
  (isMulticast (sdpConnectionIp sdp leg) = true → PlainText (sdpConnectionIp sdp leg)) ∧
    PlainText (sdpSourceFilterIp sdp leg)

/-- The addresses in an SDP that a receiver takes over. -/
def PlainSdp (c : Config) (sdp : Text) : Prop :=
  PlainLeg sdp 0 ∧ (c.isDualLeg = true → sdpHasDup sdp = true → PlainLeg sdp 1)

/-- The text in a leg of a source of its own that comes from its SDP. -/
def PlainSourceSdp (c : Config) (sdp : Text) : Prop :=
  c.isDualLeg = true → sdpHasDup sdp = true → PlainText (sdpConnectionIp sdp 1)

instance (sdp : Text) (leg : ℕ) : Decidable (PlainLeg sdp leg) := instDecidableAnd

instance (c : Config) (sdp : Text) : Decidable (PlainSdp c sdp) := instDecidableAnd

instance (c : Config) (sdp : Text) : Decidable (PlainSourceSdp c sdp) := inferInstanceAs (Decidable (_ → _ → _))

section
variable {c : Config} {h : NmosHost} {interfaceIp sec sdp : Text} {leg : ℕ}

theorem plainText_auto : PlainText "auto".toList := by decide

theorem plain_receiverLeg (hinterface : PlainText interfaceIp) (H : PlainLeg sdp leg) :
    (receiverLeg interfaceIp sdp leg).Plain := by
  refine ⟨hinterface, ?_, ?_⟩
  · simp only [receiverLeg]
    split
    · rename_i hmulticast
      refine ⟨H.1 hmulticast, fun hnull => ?_⟩
      rw [hnull] at hmulticast
      revert hmulticast
      decide
    · exact plainSetting_nil
  · simp only [receiverLeg]
    split
    · exact plainText_auto
    · exact H.2

theorem plain_buildReceiverTpFromSdp (hip : PlainText c.ipAddrStr) (hsec : PlainText sec) (H : PlainSdp c sdp) :
    ∀ tp ∈ buildReceiverTpFromSdp c sec sdp, tp.Plain := by
  rw [buildReceiverTpFromSdp, List.forall_mem_cons]
  refine ⟨plain_receiverLeg hip H.1, ?_⟩
  split
  · rename_i hdual
    rw [List.forall_mem_singleton]
    split
    · rename_i hdup
      exact plain_receiverLeg hsec (H.2 hdual hdup)
    · exact ⟨hsec, plainSetting_nil, plainText_auto⟩
  · simp

theorem plain_idleReceiverTp (hip : PlainText h.host.config.ipAddrStr) (hsec : PlainText sec) :
    ∀ tp ∈ h.idleReceiverTp sec, tp.Plain := by
  have hidle : ∀ {t : Text}, PlainText t → ReceiverTp.Plain { interfaceIp := t } :=
    fun ht => ⟨ht, plainSetting_nil, plainText_auto⟩
  rw [NmosHost.idleReceiverTp, List.forall_mem_cons]
  refine ⟨hidle hip, ?_⟩
  split
  · rw [List.forall_mem_singleton]
    exact hidle hsec
  · simp

theorem plain_buildSenderTp {src : StreamSource} (hip : PlainText h.host.config.ipAddrStr) (hsec : PlainText sec)
    (haddress : PlainText src.address) (H : PlainSourceSdp h.host.config sdp) :
    ∀ tp ∈ h.buildSenderTp sec src sdp, tp.Plain := by
  rw [NmosHost.buildSenderTp, List.forall_mem_cons]
  refine ⟨⟨hip, haddress⟩, ?_⟩
  split
  · rename_i hdual
    rw [List.forall_mem_singleton]
    split
    · rename_i hdup
      exact ⟨hsec, H hdual hdup⟩
    · exact ⟨hsec, haddress⟩
  · simp

end

/-! ## What a PATCH takes over -/

def SenderTpPatch.Plain (l : SenderTpPatch) : Prop :=
  (∀ t ∈ l.sourceIp, PlainText t) ∧ ∀ t ∈ l.destinationIp, PlainText t

def ReceiverTpPatch.Plain (l : ReceiverTpPatch) : Prop :=
  (∀ t ∈ l.interfaceIp, PlainText t) ∧ (∀ t ∈ l.multicastIp, PlainText t) ∧ ∀ t ∈ l.sourceIp, PlainText t

/-- The texts of a body that a half with so many legs takes over. -/
def Patch.Plain {π : Type} (leg : π → Prop) (legs : ℕ) (p : Patch π) : Prop :=
  (∀ t ∈ p.peerId, PlainText t) ∧ (∀ t ∈ p.mode, PlainText t) ∧ (∀ t ∈ p.requestedTime, PlainText t) ∧
    ∀ l ∈ p.legs.take legs, leg l

instance : DecidablePred SenderTpPatch.Plain := fun _ => instDecidableAnd

instance : DecidablePred ReceiverTpPatch.Plain := fun _ => instDecidableAnd

instance {π : Type} (leg : π → Prop) [DecidablePred leg] (legs : ℕ) (p : Patch π) :
    Decidable (p.Plain leg legs) := instDecidableAnd

theorem plainText_getD {o : Option Text} {t : Text} (ho : ∀ u ∈ o, PlainText u) (ht : PlainText t) :
    PlainText (o.getD t) := by
  cases o with
  | none => exact ht
  | some u => exact ho u rfl

theorem plainSetting_getD {o : Option Text} {t : Text} (ho : ∀ u ∈ o, PlainText u) (ht : PlainSetting t) :
    PlainSetting ((o.map nullable).getD t) := by
  cases o with
  | none => exact ht
  | some u => exact plainSetting_nullable (ho u rfl)

theorem SenderTp.Plain.patched {tp : SenderTp} (H : tp.Plain) {l : SenderTpPatch} (hl : l.Plain) :
    (tp.patched l).Plain :=
  ⟨plainText_getD hl.1 H.sourceIp, plainText_getD hl.2 H.destinationIp⟩

theorem ReceiverTp.Plain.patched {tp : ReceiverTp} (H : tp.Plain) {l : ReceiverTpPatch} (hl : l.Plain) :
    (tp.patched l).Plain :=
  ⟨plainText_getD hl.1 H.interfaceIp, plainSetting_getD hl.2.1 H.multicastIp, plainText_getD hl.2.2 H.sourceIp⟩

theorem forall_mem_mergeLegs {τ π : Type} {f : τ → π → τ} {P : τ → Prop} {Q : π → Prop}
    (hf : ∀ tp l, P tp → Q l → P (f tp l)) {tps : List τ} {ls : List π} (htps : ∀ tp ∈ tps, P tp)
    (hls : ∀ l ∈ ls.take tps.length, Q l) : ∀ tp ∈ mergeLegs f tps ls, P tp := by
  induction tps generalizing ls with
  | nil => simp [mergeLegs]
  | cons tp tps ih =>
      cases ls with
      | nil => exact htps
      | cons l ls =>
          rw [List.forall_mem_cons] at htps
          rw [List.length_cons, List.take_succ_cons, List.forall_mem_cons] at hls
          rw [mergeLegs, List.forall_mem_cons]
          exact ⟨hf tp l htps.1 hls.1, ih htps.2 hls.2⟩

theorem Endpoint.Plain.patched {τ π : Type} {f : τ → π → τ} {P : τ → Prop} {Q : π → Prop}
    (hf : ∀ tp l, P tp → Q l → P (f tp l)) {ep : Endpoint τ} (H : ep.Plain P) {p : Patch π}
    (hp : p.Plain Q ep.tp.length) : (ep.patched f p).Plain P where
  peerId := plainSetting_getD hp.1 H.peerId
  act := ⟨plainSetting_getD hp.2.1 H.act.mode, plainSetting_getD hp.2.2.1 H.act.requestedTime,
    H.act.activationTime⟩
  tp := forall_mem_mergeLegs hf H.tp hp.2.2.2

/-- An activation that starts or is scheduled. -/
theorem Is05Activation.Plain.begun {act : Is05Activation} (H : act.Plain) (e : NmosEnv) : (act.begun e).Plain := by
  rw [Is05Activation.begun]
  split
  · exact ⟨H.mode, H.requestedTime, plainSetting_makeVersion e⟩
  · split
    · exact ⟨H.mode, H.requestedTime, H.activationTime⟩
    · exact H

theorem plain_noActivation : Is05Activation.Plain {} := ⟨plainSetting_nil, plainSetting_nil, plainSetting_nil⟩

/-! ## The halves that are stored -/

/-- Both halves of a sender need no escape. -/
def SenderResources.Plain (sr : SenderResources) : Prop :=
  sr.staged.Plain SenderTp.Plain ∧ sr.active.Plain SenderTp.Plain

/-- Both halves of a receiver need no escape. -/
def ReceiverResources.Plain (rr : ReceiverResources) : Prop :=
  rr.staged.Plain ReceiverTp.Plain ∧ rr.active.Plain ReceiverTp.Plain

/-- The texts of an activation that is under way need no escape. -/
structure ReceiverActivation.Plain (a : ReceiverActivation) : Prop where
  senderId : PlainSetting a.senderId
  tp : ∀ tp ∈ a.tp, tp.Plain
  activationTime : PlainSetting a.activationTime
  mode : PlainSetting a.mode

theorem plain_noSender : SenderResources.Plain {} :=
  ⟨⟨plainSetting_nil, plain_noActivation, by simp⟩, ⟨plainSetting_nil, plain_noActivation, by simp⟩⟩

theorem plain_noReceiver : ReceiverResources.Plain {} :=
  ⟨⟨plainSetting_nil, plain_noActivation, by simp⟩, ⟨plainSetting_nil, plain_noActivation, by simp⟩⟩

theorem ReceiverResources.Plain.snapshot {rr : ReceiverResources} (H : rr.Plain) : rr.snapshot.Plain :=
  ⟨H.1.peerId, H.1.tp, H.1.act.activationTime, H.1.act.mode⟩

theorem ReceiverActivation.Plain.activeSenderId {a : ReceiverActivation} (H : a.Plain) :
    PlainSetting a.activeSenderId := by
  rw [ReceiverActivation.activeSenderId]
  split
  · exact H.senderId
  · exact plainSetting_nil

theorem ReceiverResources.Plain.promoted {rr : ReceiverResources} (H : rr.Plain) {a : ReceiverActivation}
    (ha : a.Plain) : (rr.promoted a).Plain :=
  ⟨H.1, ha.activeSenderId, ⟨ha.mode, H.2.act.requestedTime, ha.activationTime⟩, ha.tp⟩

namespace NmosManager
variable {h : NmosHost} {e : NmosEnv} {s s' : NmosManager} {id : UInt8}

/-- No text that is stored needs an escape. -/
structure PlainState (s : NmosManager) : Prop where
  senders : ∀ id sr, s.senders.find? id = some sr → sr.Plain
  receivers : ∀ id rr, s.receivers.find? id = some rr → rr.Plain
  preserved : ∀ id t, s.preservedActiveSenderIds.find? id = some t → PlainSetting t
  secInterfaceIpStr : PlainText s.secInterfaceIpStr

namespace PlainState

/-- Only the tables and the address matter. -/
theorem congr (H : s.PlainState) (hsenders : s'.senders = s.senders) (hreceivers : s'.receivers = s.receivers)
    (hpreserved : s'.preservedActiveSenderIds = s.preservedActiveSenderIds)
    (hsec : s'.secInterfaceIpStr = s.secInterfaceIpStr) : s'.PlainState where
  senders := by rw [hsenders]; exact H.senders
  receivers := by rw [hreceivers]; exact H.receivers
  preserved := by rw [hpreserved]; exact H.preserved
  secInterfaceIpStr := by rw [hsec]; exact H.secInterfaceIpStr

theorem insertSender (H : s.PlainState) {sr : SenderResources} (hsr : sr.Plain) :
    PlainState { s with senders := s.senders.insert id sr } := by
  refine ⟨fun id' sr' hsr' => ?_, H.receivers, H.preserved, H.secInterfaceIpStr⟩
  rw [SortedMap.find?_insert] at hsr'
  split at hsr'
  · obtain rfl := Option.some.inj hsr'
    exact hsr
  · exact H.senders id' sr' hsr'

theorem insertReceiver (H : s.PlainState) {rr : ReceiverResources} (hrr : rr.Plain) :
    PlainState { s with receivers := s.receivers.insert id rr } := by
  refine ⟨H.senders, fun id' rr' hrr' => ?_, H.preserved, H.secInterfaceIpStr⟩
  rw [SortedMap.find?_insert] at hrr'
  split at hrr'
  · obtain rfl := Option.some.inj hrr'
    exact hrr
  · exact H.receivers id' rr' hrr'

theorem modifySender (H : s.PlainState) {f : SenderResources → SenderResources}
    (hf : ∀ sr, sr.Plain → (f sr).Plain) : PlainState { s with senders := s.senders.modify id f } := by
  refine ⟨fun id' sr' hsr' => ?_, H.receivers, H.preserved, H.secInterfaceIpStr⟩
  rw [SortedMap.find?_modify] at hsr'
  split at hsr'
  · obtain ⟨sr, hsr, rfl⟩ := Option.map_eq_some_iff.mp hsr'
    exact hf sr (H.senders _ sr hsr)
  · exact H.senders id' sr' hsr'

theorem modifyReceiver (H : s.PlainState) {f : ReceiverResources → ReceiverResources}
    (hf : ∀ rr, rr.Plain → (f rr).Plain) : PlainState { s with receivers := s.receivers.modify id f } := by
  refine ⟨H.senders, fun id' rr' hrr' => ?_, H.preserved, H.secInterfaceIpStr⟩
  rw [SortedMap.find?_modify] at hrr'
  split at hrr'
  · obtain ⟨rr, hrr, rfl⟩ := Option.map_eq_some_iff.mp hrr'
    exact hf rr (H.receivers _ rr hrr)
  · exact H.receivers id' rr' hrr'

theorem modifyStagedAct (H : s.PlainState) (k : Kind) {f : Is05Activation → Is05Activation}
    (hf : ∀ act, act.Plain → (f act).Plain) : (s.modifyStagedAct k id f).PlainState := by
  cases k with
  | source => exact H.modifySender fun sr hsr => ⟨⟨hsr.1.peerId, hf _ hsr.1.act, hsr.1.tp⟩, hsr.2⟩
  | sink => exact H.modifyReceiver fun rr hrr => ⟨⟨hrr.1.peerId, hf _ hrr.1.act, hrr.1.tp⟩, hrr.2⟩

theorem schedule (H : s.PlainState) (k : Kind) (act : Is05Activation) : (s.schedule e k id act).PlainState := by
  rw [NmosManager.schedule]
  split
  · exact H.congr rfl rfl rfl rfl
  · exact H

theorem patchSender (H : s.PlainState) {body : Except Text (Patch SenderTpPatch)}
    (hbody : ∀ p sr, body = .ok p → s.senders.find? id = some sr →
      p.Plain SenderTpPatch.Plain sr.staged.tp.length) : (s.patchSenderStaged e id body).2.PlainState := by
  cases body with
  | error err => exact H
  | ok p =>
      rw [patchSenderStaged]
      cases hsr : s.senders.find? id with
      | none => exact H
      | some sr =>
          have hstaged : (sr.staged.patched SenderTp.patched p).Plain SenderTp.Plain :=
            (H.senders id sr hsr).1.patched (fun _ _ htp hl => htp.patched hl) (hbody p sr rfl hsr)
          have hstored : ({ sr with staged := { sr.staged.patched SenderTp.patched p with
              act := (sr.staged.patched SenderTp.patched p).act.begun e } } : SenderResources).Plain :=
            ⟨⟨hstaged.peerId, hstaged.act.begun e, hstaged.tp⟩, (H.senders id sr hsr).2⟩
          exact (H.insertSender hstored).schedule .source _

theorem patchReceiver (H : s.PlainState) {body : Except Text (Patch ReceiverTpPatch)}
    (hbody : ∀ p rr, body = .ok p → s.receivers.find? id = some rr →
      p.Plain ReceiverTpPatch.Plain rr.staged.tp.length) : (s.patchReceiverStaged e id body).2.PlainState := by
  cases body with
  | error err => exact H
  | ok p =>
      rw [patchReceiverStaged]
      cases hrr : s.receivers.find? id with
      | none => exact H
      | some rr =>
          have hstaged : (rr.staged.patched ReceiverTp.patched p).Plain ReceiverTp.Plain :=
            (H.receivers id rr hrr).1.patched (fun _ _ htp hl => htp.patched hl) (hbody p rr rfl hrr)
          have hstored : ({ rr with staged := { rr.staged.patched ReceiverTp.patched p with
              act := (rr.staged.patched ReceiverTp.patched p).act.begun e } } : ReceiverResources).Plain :=
            ⟨⟨hstaged.peerId, hstaged.act.begun e, hstaged.tp⟩, (H.receivers id rr hrr).2⟩
          exact (H.insertReceiver hstored).schedule .sink _

theorem promoteReceiver (H : s.PlainState) {a : ReceiverActivation} (ha : a.Plain) :
    (s.promoteReceiver id a).PlainState := by
  refine ⟨H.senders, (H.modifyReceiver fun rr hrr => hrr.promoted ha).receivers, fun id' t ht => ?_,
    H.secInterfaceIpStr⟩
  rw [NmosManager.promoteReceiver] at ht
  simp only at ht
  split at ht
  · rw [SortedMap.find?_insert] at ht
    split at ht
    · obtain rfl := Option.some.inj ht
      exact ha.activeSenderId
    · exact H.preserved id' t ht
  · exact H.preserved id' t ht

theorem eraseSender (H : s.PlainState) : (s.eraseSender h e id).PlainState := by
  refine ⟨fun id' sr hsr => ?_, H.receivers, H.preserved, H.secInterfaceIpStr⟩
  have hsr : (s.senders.erase id).find? id' = some sr := hsr
  rw [SortedMap.find?_erase, Option.ite_none_left_eq_some] at hsr
  exact H.senders id' sr hsr.2

theorem eraseReceiver (H : s.PlainState) : (s.eraseReceiver h e id).PlainState := by
  refine ⟨H.senders, fun id' rr hrr => ?_, H.preserved, H.secInterfaceIpStr⟩
  have hrr : (s.receivers.erase id).find? id' = some rr := hrr
  rw [SortedMap.find?_erase, Option.ite_none_left_eq_some] at hrr
  exact H.receivers id' rr hrr.2

theorem writeSender (H : s.PlainState) (src : StreamSource) {tp : List SenderTp} (htp : ∀ t ∈ tp, t.Plain) :
    (s.writeSender h e id src tp).PlainState := by
  have hold : ((s.senders.find? id).getD {}).Plain := by
    cases hsr : s.senders.find? id with
    | none => exact plain_noSender
    | some sr => exact H.senders id sr hsr
  refine (H.insertSender ?_).congr rfl rfl rfl rfl
  exact ⟨⟨hold.1.peerId, hold.1.act, htp⟩, ⟨hold.2.peerId, hold.2.act, htp⟩⟩

theorem writeReceiver (H : s.PlainState) (sink : StreamSink) {tp : List ReceiverTp} (htp : ∀ t ∈ tp, t.Plain) :
    (s.writeReceiver h e id sink tp).PlainState := by
  have hold : ((s.receivers.find? id).getD {}).Plain := by
    cases hrr : s.receivers.find? id with
    | none => exact plain_noReceiver
    | some rr => exact H.receivers id rr hrr
  have hpreserved : PlainSetting ((s.preservedActiveSenderIds.find? id).getD []) := by
    cases ht : s.preservedActiveSenderIds.find? id with
    | none => exact plainSetting_nil
    | some t => exact H.preserved id t ht
  refine ⟨H.senders, ?_, ?_, H.secInterfaceIpStr⟩
  · refine (H.insertReceiver ?_).receivers
    exact ⟨⟨hold.1.peerId, hold.1.act, htp⟩, ⟨hpreserved, hold.2.act, htp⟩⟩
  · intro id' t ht
    have ht : (s.preservedActiveSenderIds.erase id).find? id' = some t := ht
    rw [SortedMap.find?_erase, Option.ite_none_left_eq_some] at ht
    exact H.preserved id' t ht.2

end PlainState

theorem plain_sourceSdp {src : StreamSource} (hip : PlainText h.host.config.ipAddrStr) (H : s.PlainState)
    (haddress : PlainText src.address) (hsdp : PlainSourceSdp h.host.config (s.sourceSdp h e src.id)) :
    ∀ tp ∈ s.senderTp h e src, tp.Plain := by
  refine plain_buildSenderTp hip H.secInterfaceIpStr haddress fun hdual => ?_
  rw [if_pos hdual]
  exact hsdp hdual

theorem plain_sinkTp {sink : StreamSink} (hip : PlainText h.host.config.ipAddrStr) (H : s.PlainState)
    (hsdp : sink.connected = true → PlainSdp h.host.config sink.sdp) : ∀ tp ∈ s.sinkTp h sink, tp.Plain := by
  rw [sinkTp]
  split
  · rename_i hconnected
    exact plain_buildReceiverTpFromSdp hip H.secInterfaceIpStr (hsdp hconnected)
  · exact plain_idleReceiverTp hip H.secInterfaceIpStr

end NmosManager

/-! ## The steps of the threads -/

namespace Op
variable {h : NmosHost} {e : NmosEnv} {s : NmosManager} {op : Op}

/-- The texts a thread holds need no escape. -/
def Plain : Op → Prop
  | .resolveSdp _ a => a.Plain
  | .promoteReceiver _ a _ => a.Plain
  | .senderTp _ src _ => PlainText src.address
  | .writeSender _ _ tp _ => ∀ t ∈ tp, t.Plain
  | .writeReceiver _ _ tp _ => ∀ t ∈ tp, t.Plain
  | _ => True

/-- The texts that a step takes over from a body or an SDP need no escape. -/
def ReadsPlain (h : NmosHost) (e : NmosEnv) (s : NmosManager) : Op → Prop
  | .patchSender id (.ok p) => ∀ sr ∈ s.senders.find? id, p.Plain SenderTpPatch.Plain sr.staged.tp.length
  | .patchReceiver id (.ok p) => ∀ rr ∈ s.receivers.find? id, p.Plain ReceiverTpPatch.Plain rr.staged.tp.length
  | .senderTp _ src _ => PlainSourceSdp h.host.config (s.sourceSdp h e src.id)
  | .resolveSdp _ a => PlainSdp h.host.config (s.resolveSdp h e a.senderId)
  | .getSink id _ => ∀ sink ∈ s.sm.getSink id, sink.connected = true → PlainSdp h.host.config sink.sdp
  | _ => True

instance decidableReadsPlain (h : NmosHost) (e : NmosEnv) (s : NmosManager) :
    (op : Op) → Decidable (op.ReadsPlain h e s)
  | .patchSender id (.ok p) => inferInstanceAs (Decidable
      (∀ sr ∈ s.senders.find? id, p.Plain SenderTpPatch.Plain sr.staged.tp.length))
  | .patchReceiver id (.ok p) => inferInstanceAs (Decidable
      (∀ rr ∈ s.receivers.find? id, p.Plain ReceiverTpPatch.Plain rr.staged.tp.length))
  | .senderTp _ src _ => inferInstanceAs (Decidable (PlainSourceSdp h.host.config (s.sourceSdp h e src.id)))
  | .resolveSdp _ a => inferInstanceAs (Decidable (PlainSdp h.host.config (s.resolveSdp h e a.senderId)))
  | .getSink id _ => inferInstanceAs (Decidable
      (∀ sink ∈ s.sm.getSink id, sink.connected = true → PlainSdp h.host.config sink.sdp))
  | .patchSender _ (.error _) | .patchReceiver _ (.error _) | .resetStaged _ _ | .promoteSender _
  | .readSource _ | .rebuildSender _ _ | .snapshotReceiver _ | .promoteReceiver _ _ _ | .readSink _ _ _
  | .connect _ | .readBack _ | .storeSink _ _ | .takeDue | .stamp _ _ | .getSource _ _ | .writeSender _ _ _ _
  | .collectSender _ | .eraseSender _ | .writeReceiver _ _ _ _ | .collectReceiver _ | .eraseReceiver _
  | .fullRegistration | .getSources | .getSinks | .collectAll | .register _ | .unregister _ _ | .nextEvent
  | .startServer => isTrue trivial

theorem plainState_exec (H : s.PlainState) (hop : op.Plain) (hreads : op.ReadsPlain h e s) :
    (op.exec h e s).2.PlainState := by
  cases op with
  | patchSender id body =>
      refine H.patchSender fun p sr hbody hsr => ?_
      subst hbody
      exact hreads sr hsr
  | patchReceiver id body =>
      refine H.patchReceiver fun p rr hbody hrr => ?_
      subst hbody
      exact hreads rr hrr
  | resetStaged k id => exact H.modifyStagedAct k fun _ _ => plain_noActivation
  | stamp k id =>
      show (s.modifyStagedAct k id fun act => { act with activationTime := e.makeVersion }).PlainState
      refine H.modifyStagedAct k fun act hact => ?_
      exact ⟨hact.mode, hact.requestedTime, plainSetting_makeVersion e⟩
  | promoteSender id =>
      simp only [exec]
      split
      · exact H.modifySender fun sr hsr => ⟨hsr.1, hsr.1⟩
      · exact H
  | rebuildSender id src => exact H.modifySender fun sr hsr => hsr
  | promoteReceiver id a sdp =>
      simp only [exec]
      split
      · exact H.promoteReceiver hop
      · exact H
  | connect sink => exact H.congr rfl rfl rfl rfl
  | storeSink id sink => exact H.modifyReceiver fun rr hrr => hrr
  | writeSender id src tp push => exact H.writeSender src hop
  | writeReceiver id sink tp push => exact H.writeReceiver sink hop
  | eraseSender id =>
      simp only [exec]
      split
      · exact H.eraseSender
      · exact H
  | eraseReceiver id =>
      simp only [exec]
      split
      · exact H.eraseReceiver
      · exact H
  | takeDue | register | unregister => exact H.congr rfl rfl rfl rfl
  | nextEvent =>
      simp only [exec]
      split
      · exact H.congr rfl rfl rfl rfl
      · exact H
  | startServer =>
      refine ⟨H.senders, H.receivers, H.preserved, ?_⟩
      simp only [exec]
      split
      · exact plainText_ipText _
      · exact plainText_nil
  | _ =>
      simp only [exec]
      repeat' split
      all_goals exact H

theorem plain_apply (k : Kind) (id : UInt8) : ∀ op ∈ apply k id, op.Plain := by
  cases k <;> simp [apply, Plain]

theorem plain_afterPatch {τ : Type} (k : Kind) (id : UInt8) (ret : Except Text (Endpoint τ)) :
    ∀ op ∈ afterPatch k id ret, op.Plain := by
  cases ret with
  | error err => simp [afterPatch]
  | ok staged =>
      rw [afterPatch]
      split
      · exact plain_apply k id
      · simp

theorem plain_handle (ev : NmosEvent) : ∀ op ∈ handle ev, op.Plain := by
  cases ev with
  | added k id => cases k <;> simp [handle, Plain]
  | removed k id => cases k <;> simp [handle, Plain]
  | registryUpdated | registryLost => simp [handle, Plain]

theorem plain_register (docs : List Doc) : ∀ op ∈ docs.map register, op.Plain := by
  simp [Plain]

/-- What a thread goes on with holds no text that needs an escape. -/
theorem plain_exec (hip : PlainText h.host.config.ipAddrStr) (H : s.PlainState) (hop : op.Plain)
    (hreads : op.ReadsPlain h e s) : ∀ op' ∈ (op.exec h e s).1, op'.Plain := by
  cases op with
  | patchSender id body => exact plain_afterPatch .source id _
  | patchReceiver id body => exact plain_afterPatch .sink id _
  | snapshotReceiver id =>
      simp only [exec]
      cases hrr : s.receivers.find? id with
      | none => simp
      | some rr =>
          have hsnapshot := (H.receivers id rr hrr).snapshot
          simp only
          split <;> rw [List.forall_mem_singleton] <;> exact hsnapshot
  | resolveSdp id a =>
      simp only [exec]
      split
      · simp
      · split
        · simp
        · rw [List.forall_mem_singleton]
          exact ⟨hop.senderId, plain_buildReceiverTpFromSdp hip H.secInterfaceIpStr hreads, hop.activationTime,
            hop.mode⟩
  | promoteReceiver id a sdp =>
      simp only [exec]
      split
      · split <;> simp [Plain]
      · simp
  | takeDue =>
      simp only [exec, List.mem_flatMap]
      rintro op' ⟨pa, -, hop'⟩
      rcases List.mem_cons.mp hop' with rfl | hop'
      · trivial
      · exact plain_apply pa.kind pa.daemonId op' hop'
  | getSource id push =>
      simp only [exec]
      cases hsrc : s.sm.getSource id with
      | none => simp
      | some src =>
          obtain ⟨info, -, rfl⟩ := Option.map_eq_some_iff.mp hsrc
          rw [List.forall_mem_singleton]
          exact plainText_toText _
  | senderTp id src push =>
      simp only [exec, List.forall_mem_singleton]
      exact NmosManager.plain_sourceSdp hip H hop hreads
  | getSink id push =>
      simp only [exec]
      cases hsink : s.sm.getSink id with
      | none => simp
      | some sink =>
          rw [List.forall_mem_singleton]
          exact NmosManager.plain_sinkTp hip H (hreads sink hsink)
  | collectSender id =>
      simp only [exec]
      split
      · exact plain_register _
      · simp
  | collectAll => exact plain_register _
  | nextEvent =>
      simp only [exec]
      split
      · exact plain_handle _
      · simp
  | _ =>
      simp only [exec]
      repeat' split
      all_goals simp [Plain]

end Op

/-! ## Runs -/

/-- What is shown of a half is a JSON text, and is read back as what is stored. -/
def NmosManager.ShowsStored (s : NmosManager) : Prop :=
  (∀ id sr, s.senders.find? id = some sr →
    sr.staged.DecodesTo "receiver_id".toList SenderTp.decode? (stagedSenderJson sr) ∧
    sr.active.DecodesTo "receiver_id".toList SenderTp.decode? (activeSenderJson sr)) ∧
  ∀ id rr, s.receivers.find? id = some rr →
    rr.staged.DecodesTo "sender_id".toList ReceiverTp.decode? (stagedReceiverJson rr) ∧
    rr.active.DecodesTo "sender_id".toList ReceiverTp.decode? (activeReceiverJson rr)

theorem NmosManager.PlainState.showsStored {s : NmosManager} (H : s.PlainState) : s.ShowsStored :=
  ⟨fun id sr hsr => ⟨decodesTo_sender (H.senders id sr hsr).1, decodesTo_sender (H.senders id sr hsr).2⟩,
    fun id rr hrr => ⟨decodesTo_receiver (H.receivers id rr hrr).1, decodesTo_receiver (H.receivers id rr hrr).2⟩⟩

namespace System
variable {h : NmosHost} {σ σ' : System}

/-- Neither what is stored nor what the threads hold needs an escape. -/
def Plain (σ : System) : Prop := σ.nmos.PlainState ∧ ∀ t, ∀ op ∈ σ.threads.ops t, op.Plain

/-- What a step takes over from a body or an SDP needs no escape. -/
def TakesPlain (h : NmosHost) (σ : System) : Label → Prop
  | .turn t e => ∀ op ∈ (σ.threads.ops t).head?, op.ReadsPlain h e σ.nmos
  | _ => True

instance decidableTakesPlain (h : NmosHost) (σ : System) : (l : Label) → Decidable (σ.TakesPlain h l)
  | .turn t e => inferInstanceAs (Decidable (∀ op ∈ (σ.threads.ops t).head?, op.ReadsPlain h e σ.nmos))
  | .stream _ | .discover _ | .start _ _ => isTrue trivial

theorem plain_boot (h : NmosHost) (e : NmosEnv) (sm : SessionManager) : (boot h e sm).Plain := by
  refine ⟨⟨fun id sr hsr => ?_, fun id rr hrr => ?_, fun id t ht => ?_, plainText_nil⟩, fun t op hop => ?_⟩
  · cases hsr
  · cases hrr
  · cases ht
  · simp only [boot] at hop
    split at hop
    · simp only [Op.boot, List.mem_cons, List.not_mem_nil, or_false] at hop
      rcases hop with rfl | rfl | rfl | rfl <;> trivial
    · cases hop

theorem plain_step (hip : PlainText h.host.config.ipAddrStr) {l : Label} (H : σ.Plain)
    (hl : σ.TakesPlain h l) (hs : σ.step h l = some σ') : σ'.Plain := by
  rcases step_cases hs with ⟨ev, sm, -, -, rfl⟩ | ⟨found, -, rfl⟩ | ⟨t, op, rfl, hstarts, -, -, rfl⟩ |
    ⟨t, e, op, rest, rfl, -, hops, rfl⟩
  · exact ⟨H.1.congr rfl rfl rfl rfl, H.2⟩
  · exact ⟨H.1.congr rfl rfl rfl rfl, H.2⟩
  · refine ⟨H.1, fun t' op' hop' => ?_⟩
    have hops : ({ σ with threads := σ.threads.started t op } : System).threads.ops t' = _ := Pool.ops_started t'
    rw [hops] at hop'
    split at hop'
    · obtain rfl := List.mem_singleton.mp hop'
      -- a thread starts on nothing that holds a text
      cases op' <;> trivial
    · exact H.2 t' op' hop'
  · have hreads : op.ReadsPlain h e σ.nmos := hl op (by rw [hops]; rfl)
    have hop : op.Plain := H.2 t op (by rw [hops]; exact List.mem_cons_self)
    refine ⟨Op.plainState_exec H.1 hop hreads, fun t' op' hop' => ?_⟩
    have hops' : (σ.turned h t e op rest).threads.ops t' = _ := Pool.ops_turned t'
    rw [hops'] at hop'
    split at hop'
    · rcases List.mem_append.mp hop' with hnew | hrest
      · exact Op.plain_exec hip H.1 hop hreads op' hnew
      · exact H.2 t op' (by rw [hops]; exact List.mem_cons_of_mem _ hrest)
    · exact H.2 t' op' hop'

/-- **What is shown is what is stored**, in every state of a run that takes over no text that
needs an escape. -/
theorem showsStored_run (h : NmosHost) (hip : PlainText h.host.config.ipAddrStr) (e : NmosEnv)
    (sm : SessionManager) (labels : List Label) (σ : System)
    (halong : Along (step h) (TakesPlain h) (boot h e sm) labels)
    (hrun : run (step h) (boot h e sm) labels = some σ) : σ.nmos.ShowsStored :=
  (run_keeps (J := Plain) (P := TakesPlain h) (fun _ _ _ H hl hs => plain_step hip H hl hs)
    (plain_boot h e sm) halong hrun).1.showsStored

/-! ## Two runs -/

open NmosManager

/-- A PATCH of the sender that is activated at once. -/
def plainPatch : List Label :=
  let leg : SenderTpPatch := { destinationIp := some "239.1.0.9".toList }
  .start 1 (.patchSender 1 (activateNow { peerId := some "receiver".toList, legs := [leg] })) :: turns 5 1 {}

/-- A run with a PATCH and its activation, without a text that needs an escape. -/
theorem showsStored_run_patched : ∃ (sm : SessionManager) (σ : System),
    run (step patchHost) (boot patchHost {} sm) (sourceAndSink.2 ++ plainPatch) = some σ ∧
    (σ.nmos.senders.find? 1).map (fun sr => sr.active.peerId) = some "receiver".toList ∧ σ.nmos.ShowsStored := by
  have heval : ((run (SessionManager.occur patchHost.host) (SessionManager.start patchHost.host {} 0)
      sourceAndSink.1).bind fun sm => (run (step patchHost) (boot patchHost {} sm)
        (sourceAndSink.2 ++ plainPatch)).map fun σ => decide (Along (step patchHost) (TakesPlain patchHost)
          (boot patchHost {} sm) (sourceAndSink.2 ++ plainPatch) ∧
            (σ.nmos.senders.find? 1).map (fun sr => sr.active.peerId) = some "receiver".toList)) =
      some true := by decide +kernel
  obtain ⟨sm, -, hrun⟩ := Option.bind_eq_some_iff.mp heval
  obtain ⟨σ, hrun, hdone⟩ := Option.map_eq_some_iff.mp hrun
  obtain ⟨halong, hpeer⟩ := of_decide_eq_true hdone
  exact ⟨sm, σ, hrun, hpeer, showsStored_run patchHost (by decide) {} sm _ σ halong hrun⟩

/-- A body whose id of the receiver is a quote. -/
def quoteBody : Text := "\x7b\"receiver_id\": \"\\\"\"\x7d".toList

/-- The quote is stored as it is, and the staged half is shown as no JSON text. -/
theorem quote_unescaped : ∃ σ : System, σ.Reachable patchHost ∧
    (σ.nmos.senders.find? 1).map (fun sr => sr.staged.peerId) = some ['"'] ∧ ¬ σ.nmos.ShowsStored := by
  obtain ⟨σ, hreach, hsender⟩ := reachable_sampleRun patchHost sourceAndSink.1 (sourceAndSink.2 ++
      [.start 1 (.patchSender 1 ((readStrict quoteBody).map senderPatch)), .turn 1 {}])
    (fun σ => (σ.nmos.senders.find? 1).map (fun sr => decide (sr.staged.peerId = ['"'] ∧
      (Json.read (stagedSenderJson sr)).isNone = true)) = some true) (by decide +kernel)
  obtain ⟨sr, hsr, hdone⟩ := Option.map_eq_some_iff.mp hsender
  obtain ⟨hpeer, hnone⟩ := of_decide_eq_true hdone
  refine ⟨σ, hreach, by rw [hsr, Option.map_some, hpeer], fun H => ?_⟩
  have hdecodes := (H.1 1 sr hsr).1
  rw [Endpoint.DecodesTo, Option.isNone_iff_eq_none.mp hnone] at hdecodes
  cases hdecodes

end System
end Aes67Daemon
