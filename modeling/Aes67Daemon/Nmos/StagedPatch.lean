import Aes67Daemon.Lib.JsonValue
import Aes67Daemon.Nmos.Activation
import Aes67Daemon.Session.StreamList
import Mathlib.Tactic.MkIffOfInductiveProp

/-!
# What a PATCH stages

A PATCH of the staged half is merged member by member: what `get_optional` cannot
convert is as good as absent, legs beyond those of the resource are passed over, the
string `null` is not told from `null`, and any text is a mode.  The answer is 200 in all
these cases.  So a PATCH does what its body says, or nothing, exactly where the body has
nothing of the kind.

## Main definitions

* `senderPatch`, `receiverPatch` — what `get_optional` finds in a body.
* `NmosManager.patchSender`, `NmosManager.patchReceiver` — the handlers of the PATCH.
* `ConnSide` — a sender or a receiver, as a PATCH sees it.
* `ConnSide.Reflects` — the staged half is what a body makes of it.
* `ConnSide.Fits` — the bodies that are staged as they are.
* `NmosManager.patch_allOrNothing_iff` — when a PATCH is all or nothing.
-/
namespace Aes67Daemon

open Text

/-! ## What is found in a body -/

/-- What is found in a leg of a sender. -/
def SenderTpPatch.ofTree (leg : Ptree) : SenderTpPatch :=
  { sourceIp := (leg.at? ["source_ip".toList]).bind Ptree.getText?
    destinationIp := (leg.at? ["destination_ip".toList]).bind Ptree.getText?
    sourcePort := (leg.at? ["source_port".toList]).bind Ptree.getUInt16?
    destinationPort := (leg.at? ["destination_port".toList]).bind Ptree.getUInt16?
    rtpEnabled := (leg.at? ["rtp_enabled".toList]).bind Ptree.getBool? }

/-- What is found in a leg of a receiver. -/
def ReceiverTpPatch.ofTree (leg : Ptree) : ReceiverTpPatch :=
  { interfaceIp := (leg.at? ["interface_ip".toList]).bind Ptree.getText?
    multicastIp := (leg.at? ["multicast_ip".toList]).bind Ptree.getText?
    destinationPort := (leg.at? ["destination_port".toList]).bind Ptree.getUInt16?
    sourceIp := (leg.at? ["source_ip".toList]).bind Ptree.getText?
    rtpEnabled := (leg.at? ["rtp_enabled".toList]).bind Ptree.getBool? }

/-- What is found in the body of a PATCH; the id of the peer has a key of its own on each side. -/
def readPatch {π : Type} (peerKey : Text) (leg : Ptree → π) (pt : Ptree) : Patch π :=
  { masterEnable := (pt.at? ["master_enable".toList]).bind Ptree.getBool?
    peerId := (pt.at? [peerKey]).bind Ptree.getText?
    mode := (pt.at? ["activation".toList, "mode".toList]).bind Ptree.getText?
    requestedTime := (pt.at? ["activation".toList, "requested_time".toList]).bind Ptree.getText?
    legs := (((pt.at? ["transport_params".toList]).map Ptree.children).getD []).map fun c => leg c.2 }

def senderPatch : Ptree → Patch SenderTpPatch := readPatch "receiver_id".toList SenderTpPatch.ofTree

def receiverPatch : Ptree → Patch ReceiverTpPatch := readPatch "sender_id".toList ReceiverTpPatch.ofTree

/-! ## The handlers -/

/-- The answer to a PATCH. -/
inductive ConnAnswer (τ : Type)
  /-- 200, with the staged half. -/
  | ok (staged : Endpoint τ)
  | badRequest (err : Text)
  | notFound
  deriving DecidableEq

namespace NmosManager

/-- The local receiver with an id, if there is one. -/
def findLocalReceiver (s : NmosManager) (receiverId : Text) : Option UInt8 :=
  (s.receivers.entries.find? fun p => p.2.receiverId = receiverId).map Prod.fst

/-- The PATCH of the staged half of a sender; the world may have moved on when the activation
is carried out. -/
def patchSender (h : NmosHost) (readJson : Text → Except Text Ptree) (e e' : NmosEnv) (uuid body : Text)
    (s : NmosManager) : ConnAnswer SenderTp × NmosManager :=
  match s.findLocalSender uuid with
  | none => (.notFound, s)
  | some id =>
    match s.patchSenderStaged e id ((readJson body).map senderPatch) with
    | (.error err, s') => (.badRequest err, s')
    | (.ok staged, s') =>
      (.ok staged,
        if staged.act.immediate then (s'.applySenderActivation h e' id).resetStaged .source id else s')

/-- The PATCH of the staged half of a receiver. -/
def patchReceiver (h : NmosHost) (readJson : Text → Except Text Ptree) (e e' : NmosEnv) (uuid body : Text)
    (s : NmosManager) : ConnAnswer ReceiverTp × NmosManager :=
  match s.findLocalReceiver uuid with
  | none => (.notFound, s)
  | some id =>
    match s.patchReceiverStaged e id ((readJson body).map receiverPatch) with
    | (.error err, s') => (.badRequest err, s')
    | (.ok staged, s') =>
      (.ok staged,
        if staged.act.immediate then (s'.applyReceiverActivation h e' id).resetStaged .sink id else s')

end NmosManager

/-! ## What a body says -/

theorem nullable_of_ne {t : Text} (ht : t ≠ "null".toList) : nullable t = t := if_neg ht

/-- The modes of an activation. -/
def IsMode (t : Text) : Prop :=
  t = "activate_immediate".toList ∨ t = "activate_scheduled_relative".toList ∨
    t = "activate_scheduled_absolute".toList

instance (t : Text) : Decidable (IsMode t) := instDecidableOr

theorem nullable_of_mode {t : Text} (ht : IsMode t) : nullable t = t := by
  refine nullable_of_ne ?_
  rintro rfl
  revert ht
  decide

namespace JsonValue

/-- A string, or `null` for the empty text. -/
def nullable? : JsonValue → Option Text
  | .null => some []
  | .string t => some t
  | _ => none

/-- Neither a value of another type nor the string `null`. -/
def fitsNullable : JsonValue → Bool
  | .null => true
  | .string t => t ≠ "null".toList
  | _ => false

/-- A mode, or `null` for none. -/
def mode? : JsonValue → Option Text
  | .null => some []
  | .string t => if IsMode t then some t else none
  | _ => none

end JsonValue

namespace JsonMember

/-- A string that `null` clears. -/
def nullable : JsonMember Text where
  value? := JsonValue.nullable?
  read t := some (Aes67Daemon.nullable t.data)
  fits := JsonValue.fitsNullable
  law v old := by
    rw [Option.getD_some, eq_comm]
    cases v with
    | null => exact iff_of_true rfl rfl
    | string t =>
        by_cases ht : t = "null".toList
        · subst ht
          decide
        · exact iff_of_true (congrArg some (nullable_of_ne ht)) (decide_eq_true ht)
    | bool | number | array | object => exact iff_of_false (by rintro ⟨⟩) Bool.false_ne_true

/-- The mode of an activation. -/
def mode : JsonMember Text :=
  ofReads JsonValue.mode? (fun t => some (Aes67Daemon.nullable t.data)) fun v m hv => by
    cases v with
    | null =>
        obtain rfl := Option.some.inj hv
        rfl
    | string t =>
        obtain ⟨hmode, hm⟩ := Option.ite_none_right_eq_some.mp hv
        obtain rfl := Option.some.inj hm
        exact congrArg some (nullable_of_mode hmode)
    | bool | number | array | object => cases hv

end JsonMember

/-- The texts that `get_optional` finds, as they are stored. -/
theorem map_nullable (o : Option Ptree) :
    (o.bind Ptree.getText?).map nullable = o.bind fun t => some (nullable t.data) := by
  cases o <;> rfl

/-! ## The two sides -/

/-- A leg of a sender is what an object says. -/
@[mk_iff] structure SenderTp.Reflects (l : JsonValue) (old new : SenderTp) : Prop where
  object : l.isObject = true
  sourceIp : JsonMember.text.Shows (l.at? ["source_ip".toList]) old.sourceIp new.sourceIp
  destinationIp : JsonMember.text.Shows (l.at? ["destination_ip".toList]) old.destinationIp new.destinationIp
  sourcePort : JsonMember.uint16.Shows (l.at? ["source_port".toList]) old.sourcePort new.sourcePort
  destinationPort :
    JsonMember.uint16.Shows (l.at? ["destination_port".toList]) old.destinationPort new.destinationPort
  rtpEnabled : JsonMember.bool.Shows (l.at? ["rtp_enabled".toList]) old.rtpEnabled new.rtpEnabled

/-- The members of a leg of a sender have their types. -/
@[mk_iff] structure SenderTp.Fits (l : JsonValue) : Prop where
  object : l.isObject = true
  sourceIp : JsonMember.text.Fits (l.at? ["source_ip".toList])
  destinationIp : JsonMember.text.Fits (l.at? ["destination_ip".toList])
  sourcePort : JsonMember.uint16.Fits (l.at? ["source_port".toList])
  destinationPort : JsonMember.uint16.Fits (l.at? ["destination_port".toList])
  rtpEnabled : JsonMember.bool.Fits (l.at? ["rtp_enabled".toList])

/-- A leg of a receiver is what an object says. -/
@[mk_iff] structure ReceiverTp.Reflects (l : JsonValue) (old new : ReceiverTp) : Prop where
  object : l.isObject = true
  interfaceIp : JsonMember.text.Shows (l.at? ["interface_ip".toList]) old.interfaceIp new.interfaceIp
  multicastIp : JsonMember.nullable.Shows (l.at? ["multicast_ip".toList]) old.multicastIp new.multicastIp
  destinationPort :
    JsonMember.uint16.Shows (l.at? ["destination_port".toList]) old.destinationPort new.destinationPort
  sourceIp : JsonMember.text.Shows (l.at? ["source_ip".toList]) old.sourceIp new.sourceIp
  rtpEnabled : JsonMember.bool.Shows (l.at? ["rtp_enabled".toList]) old.rtpEnabled new.rtpEnabled

/-- The members of a leg of a receiver have their types. -/
@[mk_iff] structure ReceiverTp.Fits (l : JsonValue) : Prop where
  object : l.isObject = true
  interfaceIp : JsonMember.text.Fits (l.at? ["interface_ip".toList])
  multicastIp : JsonMember.nullable.Fits (l.at? ["multicast_ip".toList])
  destinationPort : JsonMember.uint16.Fits (l.at? ["destination_port".toList])
  sourceIp : JsonMember.text.Fits (l.at? ["source_ip".toList])
  rtpEnabled : JsonMember.bool.Fits (l.at? ["rtp_enabled".toList])

theorem SenderTp.reflects_patched (l : JsonValue) (tp : SenderTp) :
    Reflects l tp (tp.patched (.ofTree l.ptree)) ↔ Fits l := by
  rw [SenderTp.reflects_iff, SenderTp.fits_iff]
  exact and_congr_right' (and_congr (JsonMember.text.shows_at_iff l (by decide) _)
    (and_congr (JsonMember.text.shows_at_iff l (by decide) _)
    (and_congr (JsonMember.uint16.shows_at_iff l (by decide) _)
    (and_congr (JsonMember.uint16.shows_at_iff l (by decide) _)
    (JsonMember.bool.shows_at_iff l (by decide) _)))))

theorem ReceiverTp.reflects_patched (l : JsonValue) (tp : ReceiverTp) :
    Reflects l tp (tp.patched (.ofTree l.ptree)) ↔ Fits l := by
  rw [ReceiverTp.reflects_iff, ReceiverTp.fits_iff]
  have hmulticast : JsonMember.nullable.Shows (l.at? ["multicast_ip".toList]) tp.multicastIp
      (tp.patched (.ofTree l.ptree)).multicastIp ↔ JsonMember.nullable.Fits (l.at? ["multicast_ip".toList]) := by
    rw [ReceiverTp.patched, ReceiverTpPatch.ofTree, map_nullable]
    exact JsonMember.nullable.shows_at_iff l (by decide) _
  exact and_congr_right' (and_congr (JsonMember.text.shows_at_iff l (by decide) _)
    (and_congr hmulticast
    (and_congr (JsonMember.uint16.shows_at_iff l (by decide) _)
    (and_congr (JsonMember.text.shows_at_iff l (by decide) _)
    (JsonMember.bool.shows_at_iff l (by decide) _)))))

/-- A sender or a receiver, as a PATCH sees it. -/
structure ConnSide (τ π : Type) where
  peerKey : Text
  peerKey_ne : peerKey ≠ []
  /-- What is found in a leg. -/
  leg : Ptree → π
  patched : τ → π → τ
  LegReflects : JsonValue → τ → τ → Prop
  LegFits : JsonValue → Prop
  law : ∀ l tp, LegReflects l tp (patched tp (leg l.ptree)) ↔ LegFits l

def senderSide : ConnSide SenderTp SenderTpPatch where
  peerKey := "receiver_id".toList
  peerKey_ne := by decide
  leg := .ofTree
  patched := SenderTp.patched
  LegReflects := SenderTp.Reflects
  LegFits := SenderTp.Fits
  law := SenderTp.reflects_patched

def receiverSide : ConnSide ReceiverTp ReceiverTpPatch where
  peerKey := "sender_id".toList
  peerKey_ne := by decide
  leg := .ofTree
  patched := ReceiverTp.patched
  LegReflects := ReceiverTp.Reflects
  LegFits := ReceiverTp.Fits
  law := ReceiverTp.reflects_patched

namespace ConnSide
variable {τ π : Type} (c : ConnSide τ π)

/-- The legs of a body in turn; there are no more of them than the resource has, and the legs of
the resource after them stay. -/
def LegsReflect : List JsonValue → List τ → List τ → Prop
  | [], old, new => new = old
  | l :: ls, tp :: old, tp' :: new => c.LegReflects l tp tp' ∧ LegsReflect ls old new
  | _, _, _ => False

/-- The transport parameters are what an array says, and stay without one. -/
def TransportReflects (o : Option JsonValue) (old new : List τ) : Prop :=
  match o with
  | none => new = old
  | some v => ∃ ls, v.elements? = some ls ∧ c.LegsReflect ls old new

/-- The transport parameters are an array of objects, with as many legs as there are or fewer. -/
def TransportFits (o : Option JsonValue) (legs : ℕ) : Prop :=
  ∀ v ∈ o, ∃ ls, v.elements? = some ls ∧ ls.length ≤ legs ∧ ∀ l ∈ ls, c.LegFits l

/-- The staged half is what a body makes of it: every member has the type of its setting and
is its value, and a setting without a member stays. -/
@[mk_iff] structure Reflects (v : JsonValue) (old new : Endpoint τ) : Prop where
  object : v.isObject = true
  masterEnable :
    JsonMember.bool.Shows (v.at? ["master_enable".toList]) old.masterEnable new.masterEnable
  peerId : JsonMember.nullable.Shows (v.at? [c.peerKey]) old.peerId new.peerId
  activation : ∀ a ∈ v.at? ["activation".toList], a.isObject = true
  mode : JsonMember.mode.Shows (v.at? ["activation".toList, "mode".toList]) old.act.mode new.act.mode
  requestedTime : JsonMember.nullable.Shows (v.at? ["activation".toList, "requested_time".toList])
    old.act.requestedTime new.act.requestedTime
  transport : c.TransportReflects (v.at? ["transport_params".toList]) old.tp new.tp

/-- Every member of a body has the type of its setting, and is not the string `null` where the
setting can be `null`. -/
@[mk_iff] structure Fits (v : JsonValue) (legs : ℕ) : Prop where
  object : v.isObject = true
  masterEnable : JsonMember.bool.Fits (v.at? ["master_enable".toList])
  peerId : JsonMember.nullable.Fits (v.at? [c.peerKey])
  activation : ∀ a ∈ v.at? ["activation".toList], a.isObject = true
  mode : JsonMember.mode.Fits (v.at? ["activation".toList, "mode".toList])
  requestedTime : JsonMember.nullable.Fits (v.at? ["activation".toList, "requested_time".toList])
  transport : c.TransportFits (v.at? ["transport_params".toList]) legs

theorem legsReflect_merge (ls : List JsonValue) (tps : List τ) :
    c.LegsReflect ls tps (mergeLegs c.patched tps (ls.map fun l => c.leg l.ptree)) ↔
      ls.length ≤ tps.length ∧ ∀ l ∈ ls, c.LegFits l := by
  induction ls generalizing tps with
  | nil => cases tps <;> simp [mergeLegs, LegsReflect]
  | cons l ls ih =>
      cases tps with
      | nil => simp [LegsReflect]
      | cons tp tps =>
          rw [List.map_cons, mergeLegs, LegsReflect, c.law, ih, List.forall_mem_cons, List.length_cons,
            List.length_cons, Nat.add_le_add_iff_right]
          exact and_left_comm

/-- The legs that are found, as the elements of the array. -/
theorem transportReflects_merge (o : Option JsonValue) (tps : List τ) :
    c.TransportReflects o tps (mergeLegs c.patched tps
      ((((o.map JsonValue.ptree).map Ptree.children).getD []).map fun t => c.leg t.2)) ↔
      c.TransportFits o tps.length := by
  cases o with
  | none => cases tps <;> simp [mergeLegs, TransportReflects, TransportFits]
  | some v =>
      simp only [TransportReflects, TransportFits, Option.mem_some_iff, forall_eq', Option.map_some,
        Option.getD_some]
      refine exists_congr fun ls => and_congr_right fun hls => ?_
      have hlegs : v.ptree.children.map (fun t => c.leg t.2) = ls.map fun l => c.leg l.ptree := by
        have hmap := congrArg (List.map c.leg) (JsonValue.children_elements hls)
        rw [List.map_map, List.map_map] at hmap
        exact hmap
      rw [hlegs]
      exact c.legsReflect_merge ls tps

/-- **A body is staged as it is exactly if it fits.** -/
theorem reflects_patched (v : JsonValue) (ep : Endpoint τ) :
    c.Reflects v ep (ep.patched c.patched (readPatch c.peerKey c.leg v.ptree)) ↔ c.Fits v ep.tp.length := by
  have hnullable : ∀ {path : List Text} (old : Text), (∀ key ∈ path, key ≠ []) →
      (JsonMember.nullable.Shows (v.at? path) old
        ((((v.ptree.at? path).bind Ptree.getText?).map nullable).getD old) ↔
          JsonMember.nullable.Fits (v.at? path)) := by
    intro path old hpath
    rw [map_nullable]
    exact JsonMember.nullable.shows_at_iff v hpath old
  have hmode : JsonMember.mode.Shows (v.at? ["activation".toList, "mode".toList]) ep.act.mode
      ((((v.ptree.at? ["activation".toList, "mode".toList]).bind Ptree.getText?).map nullable).getD
        ep.act.mode) ↔ JsonMember.mode.Fits (v.at? ["activation".toList, "mode".toList]) := by
    rw [map_nullable]
    exact JsonMember.mode.shows_at_iff v (by decide) _
  have htransport := c.transportReflects_merge (v.at? ["transport_params".toList]) ep.tp
  rw [← v.at?_ptree (by decide)] at htransport
  rw [reflects_iff, fits_iff]
  exact and_congr_right' (and_congr (JsonMember.bool.shows_at_iff v (by decide) _)
    (and_congr (hnullable _ (by simpa using c.peerKey_ne))
    (and_congr_right' (and_congr hmode
    (and_congr (hnullable _ (by decide)) htransport)))))

end ConnSide

/-! ## The requests -/

/-- What has been shown stays in the staged half; only an immediate activation is over. -/
def Endpoint.Stands {τ : Type} (shown stored : Endpoint τ) : Prop :=
  stored.masterEnable = shown.masterEnable ∧ stored.peerId = shown.peerId ∧ stored.tp = shown.tp ∧
    if shown.act.immediate then stored.act = {}
    else stored.act.mode = shown.act.mode ∧ stored.act.requestedTime = shown.act.requestedTime

namespace Endpoint
variable {τ : Type} {shown : Endpoint τ}

theorem stands_begun (e : NmosEnv) (hlater : shown.act.immediate = false) :
    shown.Stands { shown with act := shown.act.begun e } := by
  refine ⟨rfl, rfl, rfl, ?_⟩
  rw [hlater, Is05Activation.begun, hlater]
  simp only [Bool.false_eq_true, if_false]
  split <;> exact ⟨rfl, rfl⟩

theorem stands_reset (hnow : shown.act.immediate = true) : shown.Stands { shown with act := {} } :=
  ⟨rfl, rfl, rfl, by rw [if_pos hnow]⟩

end Endpoint

namespace NmosManager
variable {h : NmosHost} {readJson : Text → Except Text Ptree} {e e' : NmosEnv} {uuid body : Text}
  {s : NmosManager} {id : UInt8}

theorem senders_schedule (k : Kind) (act : Is05Activation) : (s.schedule e k id act).senders = s.senders := by
  rw [schedule]
  split <;> rfl

theorem receivers_schedule (k : Kind) (act : Is05Activation) :
    (s.schedule e k id act).receivers = s.receivers := by
  rw [schedule]
  split <;> rfl

/-- An activation of a sender leaves the staged half alone. -/
theorem staged_applySenderActivation (h : NmosHost) (e : NmosEnv) (s : NmosManager) (id : UInt8) :
    ((s.applySenderActivation h e id).senders.find? id).map SenderResources.staged =
      (s.senders.find? id).map SenderResources.staged := by
  rw [applySenderActivation]
  split
  · have hpromote : ((s.promoteSender id).senders.find? id).map SenderResources.staged =
        (s.senders.find? id).map SenderResources.staged := by
      rw [promoteSender, SortedMap.find?_modify_self, Option.map_map]
      rfl
    cases hsrc : (s.promoteSender id).sm.getSource id with
    | none => simpa [hsrc] using hpromote
    | some src =>
        simp only [hsrc, rebuildSender, SortedMap.find?_modify_self, Option.map_map]
        exact hpromote
  · rfl

theorem staged_enactReceiver (a : ReceiverActivation) (sdp : Text) :
    ((s.enactReceiver h e id a sdp).receivers.find? id).map ReceiverResources.staged =
      (s.receivers.find? id).map ReceiverResources.staged := by
  have hpromote : ((s.promoteReceiver id a).receivers.find? id).map ReceiverResources.staged =
      (s.receivers.find? id).map ReceiverResources.staged := by
    rw [promoteReceiver, SortedMap.find?_modify_self, Option.map_map]
    rfl
  have hadd : (s.reAdded h e id a sdp).receivers = (s.promoteReceiver id a).receivers := by
    rw [reAdded]
    split
    · split
      · exact receivers_addSink _
      · rfl
    · rfl
  rw [← hadd] at hpromote
  rw [← hpromote, enactReceiver]
  split
  · simp only [storeSink, SortedMap.find?_modify_self, Option.map_map]
    rfl
  · rfl

/-- An activation of a receiver leaves the staged half alone. -/
theorem staged_applyReceiverActivation (h : NmosHost) (e : NmosEnv) (s : NmosManager) (id : UInt8) :
    ((s.applyReceiverActivation h e id).receivers.find? id).map ReceiverResources.staged =
      (s.receivers.find? id).map ReceiverResources.staged := by
  rw [applyReceiverActivation]
  split
  · rfl
  · simp only
    split
    · split
      · rfl
      · split
        · rfl
        · exact staged_enactReceiver _ _
    · exact staged_enactReceiver _ _

/-- What a PATCH of a sender leads to: the answer, and the staged half after it. -/
theorem patchSender_found (h : NmosHost) (e e' : NmosEnv) {tree : Ptree} {sr : SenderResources}
    (hread : readJson body = .ok tree) (hid : s.findLocalSender uuid = some id)
    (hsr : s.senders.find? id = some sr) :
    ∃ s' sr', s.patchSender h readJson e e' uuid body =
        (.ok (sr.staged.patched SenderTp.patched (senderPatch tree)), s') ∧
      s'.senders.find? id = some sr' ∧
      (sr.staged.patched SenderTp.patched (senderPatch tree)).Stands sr'.staged := by
  have hbody : (readJson body).map senderPatch = .ok (senderPatch tree) := by
    rw [hread]
    rfl
  generalize hshown : sr.staged.patched SenderTp.patched (senderPatch tree) = shown
  obtain ⟨t, ht, hstored⟩ : ∃ t, s.patchSenderStaged e id ((readJson body).map senderPatch) = (.ok shown, t) ∧
      t.senders.find? id = some { sr with staged := { shown with act := shown.act.begun e } } := by
    rw [hbody, patchSenderStaged]
    simp only [hsr, hshown]
    exact ⟨_, rfl, by rw [senders_schedule, SortedMap.find?_insert_self]⟩
  simp only [patchSender, hid, ht]
  split
  · rename_i hnow
    have hkept := staged_applySenderActivation h e' t id
    rw [hstored, Option.map_some] at hkept
    obtain ⟨sr', hsr', hstaged⟩ := Option.map_eq_some_iff.mp hkept
    refine ⟨_, _, rfl, (SortedMap.find?_modify_self _ _ _).trans (by rw [hsr', Option.map_some]), ?_⟩
    rw [hstaged]
    exact Endpoint.stands_reset hnow
  · rename_i hlater
    exact ⟨t, _, rfl, hstored, Endpoint.stands_begun e (Bool.not_eq_true _ ▸ hlater)⟩

/-- What a PATCH of a receiver leads to. -/
theorem patchReceiver_found (h : NmosHost) (e e' : NmosEnv) {tree : Ptree} {rr : ReceiverResources}
    (hread : readJson body = .ok tree) (hid : s.findLocalReceiver uuid = some id)
    (hrr : s.receivers.find? id = some rr) :
    ∃ s' rr', s.patchReceiver h readJson e e' uuid body =
        (.ok (rr.staged.patched ReceiverTp.patched (receiverPatch tree)), s') ∧
      s'.receivers.find? id = some rr' ∧
      (rr.staged.patched ReceiverTp.patched (receiverPatch tree)).Stands rr'.staged := by
  have hbody : (readJson body).map receiverPatch = .ok (receiverPatch tree) := by
    rw [hread]
    rfl
  generalize hshown : rr.staged.patched ReceiverTp.patched (receiverPatch tree) = shown
  obtain ⟨t, ht, hstored⟩ : ∃ t, s.patchReceiverStaged e id ((readJson body).map receiverPatch) =
      (.ok shown, t) ∧
      t.receivers.find? id = some { rr with staged := { shown with act := shown.act.begun e } } := by
    rw [hbody, patchReceiverStaged]
    simp only [hrr, hshown]
    exact ⟨_, rfl, by rw [receivers_schedule, SortedMap.find?_insert_self]⟩
  simp only [patchReceiver, hid, ht]
  split
  · rename_i hnow
    have hkept := staged_applyReceiverActivation h e' t id
    rw [hstored, Option.map_some] at hkept
    obtain ⟨rr', hrr', hstaged⟩ := Option.map_eq_some_iff.mp hkept
    refine ⟨_, _, rfl, (SortedMap.find?_modify_self _ _ _).trans (by rw [hrr', Option.map_some]), ?_⟩
    rw [hstaged]
    exact Endpoint.stands_reset hnow
  · rename_i hlater
    exact ⟨t, _, rfl, hstored, Endpoint.stands_begun e (Bool.not_eq_true _ ▸ hlater)⟩

theorem find?_findLocalSender (hid : s.findLocalSender uuid = some id) :
    ∃ sr, s.senders.find? id = some sr := by
  obtain ⟨⟨id', sr⟩, hfind, rfl⟩ := Option.map_eq_some_iff.mp hid
  exact ⟨sr, SortedMap.mem_entries.mp (List.mem_of_find?_eq_some hfind)⟩

theorem find?_findLocalReceiver (hid : s.findLocalReceiver uuid = some id) :
    ∃ rr, s.receivers.find? id = some rr := by
  obtain ⟨⟨id', rr⟩, hfind, rfl⟩ := Option.map_eq_some_iff.mp hid
  exact ⟨rr, SortedMap.mem_entries.mp (List.mem_of_find?_eq_some hfind)⟩

/-- The PATCH of a sender with a body that is `v` does all that `v` says, or nothing. -/
def SenderAllOrNothing (h : NmosHost) (readJson : Text → Except Text Ptree) (e e' : NmosEnv)
    (uuid body : Text) (v : JsonValue) (s : NmosManager) : Prop :=
  match s.patchSender h readJson e e' uuid body with
  | (.ok shown, s') => ∃ id sr sr', s.findLocalSender uuid = some id ∧ s.senders.find? id = some sr ∧
      s'.senders.find? id = some sr' ∧ senderSide.Reflects v sr.staged shown ∧ shown.Stands sr'.staged
  | (_, s') => s' = s

/-- The PATCH of a receiver with a body that is `v` does all that `v` says, or nothing. -/
def ReceiverAllOrNothing (h : NmosHost) (readJson : Text → Except Text Ptree) (e e' : NmosEnv)
    (uuid body : Text) (v : JsonValue) (s : NmosManager) : Prop :=
  match s.patchReceiver h readJson e e' uuid body with
  | (.ok shown, s') => ∃ id rr rr', s.findLocalReceiver uuid = some id ∧ s.receivers.find? id = some rr ∧
      s'.receivers.find? id = some rr' ∧ receiverSide.Reflects v rr.staged shown ∧ shown.Stands rr'.staged
  | (_, s') => s' = s

theorem senderAllOrNothing_iff {v : JsonValue} (hread : readJson body = .ok v.ptree) :
    s.SenderAllOrNothing h readJson e e' uuid body v ↔
      ∀ id sr, s.findLocalSender uuid = some id → s.senders.find? id = some sr →
        senderSide.Fits v sr.staged.tp.length := by
  cases hid : s.findLocalSender uuid with
  | none => simp [SenderAllOrNothing, patchSender, hid]
  | some id =>
      obtain ⟨sr, hsr⟩ := find?_findLocalSender hid
      obtain ⟨s', sr', hpatch, hsr', hstands⟩ := patchSender_found h e e' hread hid hsr
      have hfits := senderSide.reflects_patched v sr.staged
      rw [SenderAllOrNothing, hpatch]
      constructor
      · rintro ⟨id', sr₀, -, hid', hsr₀, -, hreflects, -⟩ id'' sr'' hid'' hsr''
        obtain rfl := Option.some.inj (hid.symm.trans hid')
        obtain rfl := Option.some.inj hid''
        obtain rfl := Option.some.inj (hsr.symm.trans hsr₀)
        obtain rfl := Option.some.inj (hsr.symm.trans hsr'')
        exact hfits.mp hreflects
      · intro hall
        exact ⟨id, sr, sr', hid, hsr, hsr', hfits.mpr (hall id sr rfl hsr), hstands⟩

theorem receiverAllOrNothing_iff {v : JsonValue} (hread : readJson body = .ok v.ptree) :
    s.ReceiverAllOrNothing h readJson e e' uuid body v ↔
      ∀ id rr, s.findLocalReceiver uuid = some id → s.receivers.find? id = some rr →
        receiverSide.Fits v rr.staged.tp.length := by
  cases hid : s.findLocalReceiver uuid with
  | none => simp [ReceiverAllOrNothing, patchReceiver, hid]
  | some id =>
      obtain ⟨rr, hrr⟩ := find?_findLocalReceiver hid
      obtain ⟨s', rr', hpatch, hrr', hstands⟩ := patchReceiver_found h e e' hread hid hrr
      have hfits := receiverSide.reflects_patched v rr.staged
      rw [ReceiverAllOrNothing, hpatch]
      constructor
      · rintro ⟨id', rr₀, -, hid', hrr₀, -, hreflects, -⟩ id'' rr'' hid'' hrr''
        obtain rfl := Option.some.inj (hid.symm.trans hid')
        obtain rfl := Option.some.inj hid''
        obtain rfl := Option.some.inj (hrr.symm.trans hrr₀)
        obtain rfl := Option.some.inj (hrr.symm.trans hrr'')
        exact hfits.mp hreflects
      · intro hall
        exact ⟨id, rr, rr', hid, hrr, hrr', hfits.mpr (hall id rr rfl hrr), hstands⟩

/-- **When a PATCH is all or nothing**: for every sender and receiver, exactly if every recognised
member of the body has the type of its setting, the string `null` does not stand for `null`, the
mode is one of those there are and the legs are no more than those of the resource. -/
theorem patch_allOrNothing_iff (h : NmosHost) (readJson : Text → Except Text Ptree) (e e' : NmosEnv)
    (uuid body : Text) (v : JsonValue) (s : NmosManager) (hread : readJson body = .ok v.ptree) :
    (s.SenderAllOrNothing h readJson e e' uuid body v ↔
      ∀ id sr, s.findLocalSender uuid = some id → s.senders.find? id = some sr →
        senderSide.Fits v sr.staged.tp.length) ∧
    (s.ReceiverAllOrNothing h readJson e e' uuid body v ↔
      ∀ id rr, s.findLocalReceiver uuid = some id → s.receivers.find? id = some rr →
        receiverSide.Fits v rr.staged.tp.length) :=
  ⟨senderAllOrNothing_iff hread, receiverAllOrNothing_iff hread⟩

/-! ## Two bodies -/

def patchHost : NmosHost := { makeUuid5 := fun ns name => ns ++ '-' :: name }

/-- A registration of a source and of a sink, and `init` and the worker after it. -/
def sourceAndSink : List Event × List Label :=
  ([.request (.addSource (.accepting 7) (stereoSource 1 "a".toList)),
    .request (.addSink (.accepting 8) (stereoSink 2 "b".toList []))], turns 22 0 {})

/-- A reader that takes RFC 8259 texts only. -/
def readStrict (t : Text) : Except Text Ptree := (Json.read t).elim (.error []) .ok

/-- A body that moves a sender or a receiver to another port. -/
def portBody (port : ℕ) : JsonValue :=
  .object [("master_enable".toList, .bool false),
    ("transport_params".toList, .array [.object [("destination_port".toList, .number (.natural port))]])]

theorem plain_portBody (port : ℕ) : (portBody port).Plain := by
  have hkey : ∀ key ∈ ["master_enable".toList, "transport_params".toList, "destination_port".toList],
      (∀ c ∈ key, Json.plain c = true) ∧ Json.isUtf8 key = true := by
    have hall : ∀ key ∈ ["master_enable".toList, "transport_params".toList, "destination_port".toList],
        key.all Json.plain = true ∧ Json.isUtf8 key = true := by decide
    exact fun key hmem => ⟨List.all_eq_true.mp (hall key hmem).1, (hall key hmem).2⟩
  refine .object (fun m hm => hkey m.1 ?_) fun m hm => ?_
  · simp only [List.mem_cons, List.not_mem_nil, or_false] at hm
    rcases hm with rfl | rfl <;> simp
  · simp only [List.mem_cons, List.not_mem_nil, or_false] at hm
    rcases hm with rfl | rfl
    · exact .bool false
    · refine .array fun l hl => ?_
      obtain rfl := List.mem_singleton.mp hl
      refine .object (fun m hm => hkey m.1 ?_) fun m hm => ?_
      · obtain rfl := List.mem_singleton.mp hm
        simp
      · obtain rfl := List.mem_singleton.mp hm
        exact .number port

theorem readStrict_portBody (port : ℕ) : readStrict (portBody port).text = .ok (portBody port).ptree := by
  rw [readStrict, (plain_portBody port).read_text]
  rfl

/-- A sender and a receiver that take a port together with the rest of the body. -/
theorem patch_allOrNothing_port : ∃ s : NmosManager,
    s.findLocalSender (patchHost.makeResourceUuid "sender".toList 1) = some 1 ∧
    s.findLocalReceiver (patchHost.makeResourceUuid "receiver".toList 2) = some 2 ∧
    s.SenderAllOrNothing patchHost readStrict {} {} (patchHost.makeResourceUuid "sender".toList 1)
      (portBody 5006).text (portBody 5006) ∧
    s.ReceiverAllOrNothing patchHost readStrict {} {} (patchHost.makeResourceUuid "receiver".toList 2)
      (portBody 5006).text (portBody 5006) := by
  obtain ⟨σ, -, hsender, hreceiver, hlegs, hlegs'⟩ := reachable_sampleRun patchHost sourceAndSink.1
    sourceAndSink.2
    (fun σ => σ.nmos.findLocalSender (patchHost.makeResourceUuid "sender".toList 1) = some 1 ∧
      σ.nmos.findLocalReceiver (patchHost.makeResourceUuid "receiver".toList 2) = some 2 ∧
      (∀ p ∈ σ.nmos.senders.entries, 1 ≤ p.2.staged.tp.length) ∧
      ∀ p ∈ σ.nmos.receivers.entries, 1 ≤ p.2.staged.tp.length) (by decide +kernel)
  refine ⟨σ.nmos, hsender, hreceiver, ?_, ?_⟩
  · refine (patch_allOrNothing_iff _ _ _ _ _ _ _ _ (readStrict_portBody 5006)).1.mpr ?_
    rintro id sr - hsr
    refine ⟨rfl, by decide, by decide, by decide, by decide, by decide, ?_⟩
    intro v hv
    obtain rfl := Option.some.inj hv
    refine ⟨_, rfl, hlegs (id, sr) (SortedMap.mem_entries.mpr hsr), fun l hl => ?_⟩
    obtain rfl := List.mem_singleton.mp hl
    exact ⟨rfl, by decide, by decide, by decide, by decide, by decide⟩
  · refine (patch_allOrNothing_iff _ _ _ _ _ _ _ _ (readStrict_portBody 5006)).2.mpr ?_
    rintro id rr - hrr
    refine ⟨rfl, by decide, by decide, by decide, by decide, by decide, ?_⟩
    intro v hv
    obtain rfl := Option.some.inj hv
    refine ⟨_, rfl, hlegs' (id, rr) (SortedMap.mem_entries.mpr hrr), fun l hl => ?_⟩
    obtain rfl := List.mem_singleton.mp hl
    exact ⟨rfl, by decide, by decide, by decide, by decide, by decide⟩

/-- A port that is out of range is dropped, and the rest of the body is staged. -/
theorem outOfRange_dropped : ∃ (σ : System) (sr : SenderResources),
    σ.Reachable patchHost ∧ σ.nmos.senders.find? 1 = some sr ∧ sr.staged.masterEnable = true ∧
    (σ.nmos.patchSender patchHost readStrict {} {} (patchHost.makeResourceUuid "sender".toList 1)
      (portBody 70000).text).1 = .ok { sr.staged with masterEnable := false } ∧
    ¬ σ.nmos.SenderAllOrNothing patchHost readStrict {} {} (patchHost.makeResourceUuid "sender".toList 1)
      (portBody 70000).text (portBody 70000) := by
  obtain ⟨σ, hreach, hid, hsr⟩ := reachable_sampleRun patchHost sourceAndSink.1 sourceAndSink.2
    (fun σ => σ.nmos.findLocalSender (patchHost.makeResourceUuid "sender".toList 1) = some 1 ∧
      (σ.nmos.senders.find? 1).map (fun sr => decide (sr.staged.masterEnable = true ∧
        sr.staged.patched SenderTp.patched (senderPatch (portBody 70000).ptree) =
          { sr.staged with masterEnable := false })) = some true) (by decide +kernel)
  obtain ⟨sr, hsr, hmerged⟩ := Option.map_eq_some_iff.mp hsr
  obtain ⟨henabled, hmerged⟩ := of_decide_eq_true hmerged
  obtain ⟨s', sr', hpatch, -, -⟩ := patchSender_found patchHost {} {} (readStrict_portBody 70000) hid hsr
  refine ⟨σ, sr, hreach, hsr, henabled, ?_, ?_⟩
  · rw [hpatch]
    exact congrArg ConnAnswer.ok hmerged
  · rw [senderAllOrNothing_iff (readStrict_portBody 70000)]
    intro hall
    obtain ⟨ls, hls, -, hlegs⟩ := (hall 1 sr hid hsr).transport _ rfl
    obtain rfl := Option.some.inj hls
    exact absurd (hlegs _ List.mem_cons_self).destinationPort (by decide)

end NmosManager
end Aes67Daemon
