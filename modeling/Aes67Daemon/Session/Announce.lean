import Aes67Daemon.Lib.Retraction
import Aes67Daemon.Session.Worker
import Mathlib.Tactic.Tauto

/-!
# Announcements

`process_sap` announces the SDP of every enabled source and retracts the SDPs it
announced before and does not announce any more.  It works in three passes over
two maps: the sources, then the announced hashes, and then, in `erase_if`, the
announced hashes again, where `operator[]` on the counts inserts a zero for every
hash it is asked for.

Hash by hash, a call is one round of the counter of `Retraction`.

## Main definitions

* `SessionManager.processSap` — `process_sap`, with the calls it makes to `SAP`.
* `processSap_spec` — a call, hash by hash.
* `sap_rounds` — what follows for every sequence of calls.
-/
namespace Aes67Daemon

open Text

/-- `crc16`. -/
def crc16 (t : Text) : UInt16 :=
  t.foldl (fun crc c =>
    let x := (crc >>> (8 : UInt16)).toUInt8 ^^^ UInt8.ofNat c.toNat
    let x := x ^^^ (x >>> (4 : UInt8))
    (crc <<< (8 : UInt16)) ^^^ (x.toUInt16 <<< (12 : UInt16)) ^^^ (x.toUInt16 <<< (5 : UInt16)) ^^^
      x.toUInt16) 0xffff

/-- `SAP::max_deletions`. -/
def maxDeletions : ℕ := 3

/-- A call to `SAP::announcement` or `SAP::deletion`, for the hash it stands for. -/
structure SapCall where
  isAnnounce : Bool
  hash : UInt32
  msgIdHash : UInt16
  srcAddr : UInt32
  sdp : Text
  deriving DecidableEq

/-- The local variables of `process_sap` and the two maps. -/
structure SapPass where
  announced : SortedMap UInt32 (UInt32 × UInt32 × UInt32)
  deletedCount : SortedMap UInt32 ℕ
  active : List UInt32 := []
  /-- The calls so far. -/
  calls : List SapCall := []
  sdpLenSum : ℕ := 0

namespace SapPass

/-- `msg_id_hash` of a source with the given SDP. -/
def hashOf (id : UInt8) (sdp : Text) : UInt32 :=
  (id.toUInt32 <<< (16 : UInt32)) + (crc16 sdp).toUInt32

/-- The first pass: one source. -/
def announceSource (sdpOf : StreamInfo → Text) (p : SapPass) (e : UInt8 × StreamInfo) : SapPass :=
  if e.2.enabled then
    let sdp := sdpOf e.2
    let hash := hashOf e.1 sdp
    { announced := p.announced.insert hash
        (e.2.stream.leg0.ui32RTCPSrcIP, e.2.sessionId, e.2.sessionVersion)
      active := p.active.insert hash
      deletedCount := p.deletedCount.erase hash
      calls := p.calls ++ [⟨true, hash, crc16 sdp, e.2.stream.leg0.ui32RTCPSrcIP, sdp⟩]
      sdpLenSum := p.sdpLenSum + sdp.length }
  else p

/-- The second pass: one announced hash. -/
def deleteSource (p : SapPass) (e : UInt32 × UInt32 × UInt32 × UInt32) : SapPass :=
  if e.1 ∈ p.active then p
  else
    let sdp := getRemovedSourceSdp e.2.1 e.2.2.1 e.2.2.2
    { p with
      calls := p.calls ++ [⟨false, e.1, e.1.toUInt16, e.2.1, sdp⟩]
      sdpLenSum := p.sdpLenSum + sdp.length
      deletedCount := p.deletedCount.insert e.1 ((p.deletedCount.find? e.1).getD 0 + 1) }

/-- The third pass: one announced hash.  `operator[]` inserts a count that is not
there. -/
def expireSource (p : SapPass) (e : UInt32 × UInt32 × UInt32 × UInt32) : SapPass :=
  let count := (p.deletedCount.find? e.1).getD 0
  if maxDeletions ≤ count then
    { p with deletedCount := p.deletedCount.erase e.1, announced := p.announced.erase e.1 }
  else { p with deletedCount := p.deletedCount.insert e.1 count }

/-- The three passes. -/
def run (sdpOf : StreamInfo → Text) (sources : List (UInt8 × StreamInfo)) (p : SapPass) : SapPass :=
  let p := sources.foldl (announceSource sdpOf) p
  let p := p.announced.entries.foldl deleteSource p
  p.announced.entries.foldl expireSource p

/-! ## The passes, one by one -/

section
variable {sdpOf : StreamInfo → Text}

/-- The call that announces a source. -/
def announcement (sdpOf : StreamInfo → Text) (e : UInt8 × StreamInfo) : SapCall :=
  { isAnnounce := true
    hash := hashOf e.1 (sdpOf e.2)
    msgIdHash := crc16 (sdpOf e.2)
    srcAddr := e.2.stream.leg0.ui32RTCPSrcIP
    sdp := sdpOf e.2 }

/-- The call that retracts an announced hash. -/
def deletion (e : UInt32 × UInt32 × UInt32 × UInt32) : SapCall :=
  { isAnnounce := false
    hash := e.1
    msgIdHash := e.1.toUInt16
    srcAddr := e.2.1
    sdp := getRemovedSourceSdp e.2.1 e.2.2.1 e.2.2.2 }

/-- The hashes of the enabled sources. -/
def hashes (sdpOf : StreamInfo → Text) (es : List (UInt8 × StreamInfo)) : List UInt32 :=
  (es.filter fun e => e.2.enabled).map fun e => hashOf e.1 (sdpOf e.2)

variable (sdpOf) in
/-- After the first pass, the hashes of the enabled sources are active and
announced, and have no count. -/
theorem announce_spec (es : List (UInt8 × StreamInfo)) (p : SapPass) :
    (∀ h, h ∈ (es.foldl (announceSource sdpOf) p).active ↔ h ∈ p.active ∨ h ∈ hashes sdpOf es) ∧
    (∀ h, ((es.foldl (announceSource sdpOf) p).announced.find? h).isSome =
      ((p.announced.find? h).isSome || decide (h ∈ hashes sdpOf es))) ∧
    (∀ h, (es.foldl (announceSource sdpOf) p).deletedCount.find? h =
      if h ∈ hashes sdpOf es then none else p.deletedCount.find? h) ∧
    (es.foldl (announceSource sdpOf) p).calls =
      p.calls ++ (es.filter fun e => e.2.enabled).map (announcement sdpOf) := by
  induction es generalizing p with
  | nil => simp [hashes]
  | cons e es ih =>
      obtain ⟨hactive, hann, hdel, hcalls⟩ := ih (announceSource sdpOf p e)
      rw [List.foldl_cons]
      cases hen : e.2.enabled with
      | false =>
          have hp : announceSource sdpOf p e = p := by simp [announceSource, hen]
          have hhashes : hashes sdpOf (e :: es) = hashes sdpOf es := by simp [hashes, hen]
          rw [hp] at hactive hann hdel hcalls ⊢
          rw [hhashes, List.filter_cons, if_neg (show ¬ e.2.enabled = true by simp [hen])]
          exact ⟨hactive, hann, hdel, hcalls⟩
      | true =>
          have hhashes : hashes sdpOf (e :: es) = hashOf e.1 (sdpOf e.2) :: hashes sdpOf es := by
            simp [hashes, hen]
          rw [hhashes, List.filter_cons, if_pos hen]
          refine ⟨fun h => ?_, fun h => ?_, fun h => ?_, ?_⟩
          · rw [hactive h]
            simp only [announceSource, hen, if_true, List.mem_insert_iff, List.mem_cons]
            tauto
          · rw [hann h]
            by_cases hh : h = hashOf e.1 (sdpOf e.2) <;>
              simp [announceSource, hen, SortedMap.find?_insert, hh]
          · rw [hdel h]
            by_cases hh : h = hashOf e.1 (sdpOf e.2) <;>
              simp [announceSource, hen, SortedMap.find?_erase, hh]
          · rw [hcalls]
            simp [announceSource, hen, announcement]

theorem isSome_find?_iff {α : Type} {m : SortedMap UInt32 α} {h : UInt32} :
    (m.find? h).isSome = true ↔ h ∈ m.entries.map Prod.fst := by
  simp [Option.isSome_iff_exists, ← SortedMap.mem_entries]

theorem mem_keys_cons {β : Type} {e : UInt32 × β} {es : List (UInt32 × β)} {h : UInt32} :
    h ∈ (e :: es).map Prod.fst ↔ h = e.1 ∨ h ∈ es.map Prod.fst := by
  rw [List.map_cons, List.mem_cons]

/-- The second pass counts, and makes, one deletion for every announced hash that
is not active. -/
theorem delete_spec (es : List (UInt32 × UInt32 × UInt32 × UInt32)) (p : SapPass)
    (hnodup : (es.map Prod.fst).Nodup) :
    (es.foldl deleteSource p).active = p.active ∧
    (es.foldl deleteSource p).announced = p.announced ∧
    (∀ h, (es.foldl deleteSource p).deletedCount.find? h =
      if h ∈ es.map Prod.fst ∧ h ∉ p.active then some ((p.deletedCount.find? h).getD 0 + 1)
      else p.deletedCount.find? h) ∧
    (es.foldl deleteSource p).calls =
      p.calls ++ (es.filter fun e => e.1 ∉ p.active).map deletion := by
  induction es generalizing p with
  | nil => simp
  | cons e es ih =>
      rw [List.map_cons, List.nodup_cons] at hnodup
      obtain ⟨hnot, hnodup⟩ := hnodup
      obtain ⟨hactive, hann, hdel, hcalls⟩ := ih (deleteSource p e) hnodup
      rw [List.foldl_cons]
      by_cases hmem : e.1 ∈ p.active
      · have hp : deleteSource p e = p := by simp [deleteSource, hmem]
        rw [hp] at hactive hann hdel hcalls ⊢
        refine ⟨hactive, hann, fun h => ?_, ?_⟩
        · rw [hdel h]
          by_cases hh : h = e.1
          · simp only [mem_keys_cons, hh, hmem, not_true_eq_false, and_false, if_false]
          · simp only [mem_keys_cons, hh, false_or]
        · rw [hcalls, List.filter_cons, if_neg (show ¬ decide (e.1 ∉ p.active) = true by simp [hmem])]
      · have hkeep : (deleteSource p e).active = p.active := by simp [deleteSource, hmem]
        rw [hkeep] at hactive hdel hcalls
        refine ⟨hactive, by rw [hann]; simp [deleteSource, hmem], fun h => ?_, ?_⟩
        · have hone : (deleteSource p e).deletedCount.find? h =
              if h = e.1 then some ((p.deletedCount.find? e.1).getD 0 + 1)
              else p.deletedCount.find? h := by
            simp [deleteSource, hmem, SortedMap.find?_insert]
          rw [hdel h, hone]
          by_cases hh : h = e.1
          · simp only [mem_keys_cons, hh, hnot, hmem, false_and, if_false, if_true, true_or, not_false_eq_true,
              and_self]
          · simp only [mem_keys_cons, hh, false_or, if_false]
        · rw [hcalls, List.filter_cons, if_pos (show decide (e.1 ∉ p.active) = true by simp [hmem])]
          simp [deleteSource, hmem, deletion]

/-- The third pass forgets the announced hashes that were retracted often enough,
and gives the others a count. -/
theorem expire_spec (es : List (UInt32 × UInt32 × UInt32 × UInt32)) (p : SapPass)
    (hnodup : (es.map Prod.fst).Nodup) :
    (∀ h, (es.foldl expireSource p).deletedCount.find? h =
      if h ∈ es.map Prod.fst then
        if maxDeletions ≤ (p.deletedCount.find? h).getD 0 then none
        else some ((p.deletedCount.find? h).getD 0)
      else p.deletedCount.find? h) ∧
    (∀ h, (es.foldl expireSource p).announced.find? h =
      if h ∈ es.map Prod.fst ∧ maxDeletions ≤ (p.deletedCount.find? h).getD 0 then none
      else p.announced.find? h) ∧
    (es.foldl expireSource p).calls = p.calls := by
  induction es generalizing p with
  | nil => simp
  | cons e es ih =>
      rw [List.map_cons, List.nodup_cons] at hnodup
      obtain ⟨hnot, hnodup⟩ := hnodup
      obtain ⟨hdel, hann, hcalls⟩ := ih (expireSource p e) hnodup
      have hone : ∀ h, (expireSource p e).deletedCount.find? h =
          if h = e.1 then
            if maxDeletions ≤ (p.deletedCount.find? e.1).getD 0 then none
            else some ((p.deletedCount.find? e.1).getD 0)
          else p.deletedCount.find? h := by
        intro h
        by_cases hmax : maxDeletions ≤ (p.deletedCount.find? e.1).getD 0 <;>
          simp [expireSource, hmax, SortedMap.find?_erase, SortedMap.find?_insert]
      have hone' : ∀ h, (expireSource p e).announced.find? h =
          if h = e.1 ∧ maxDeletions ≤ (p.deletedCount.find? e.1).getD 0 then none
          else p.announced.find? h := by
        intro h
        by_cases hmax : maxDeletions ≤ (p.deletedCount.find? e.1).getD 0 <;>
          simp [expireSource, hmax, SortedMap.find?_erase]
      rw [List.foldl_cons]
      refine ⟨fun h => ?_, fun h => ?_, ?_⟩
      · rw [hdel h, hone]
        by_cases hh : h = e.1
        · simp only [mem_keys_cons, hh, hnot, if_false, if_true, true_or]
        · simp only [mem_keys_cons, hh, false_or, if_false]
      · rw [hann h, hone, hone']
        by_cases hh : h = e.1
        · simp only [mem_keys_cons, hh, hnot, false_and, if_false, true_and, true_or]
        · simp only [mem_keys_cons, hh, false_or, false_and, if_false]
      · rw [hcalls]
        simp only [expireSource]
        split <;> rfl

/-- How often a hash was retracted, once the second pass has seen it. -/
def retracted (sdpOf : StreamInfo → Text) (es : List (UInt8 × StreamInfo)) (p : SapPass)
    (h : UInt32) : Option ℕ :=
  if (p.announced.find? h).isSome ∧ h ∉ hashes sdpOf es then
    some ((p.deletedCount.find? h).getD 0 + 1)
  else p.deletedCount.find? h

/-- The second and the third pass, after the first has led to `p1`. -/
theorem run_passes (es : List (UInt8 × StreamInfo)) {p p1 : SapPass} (hactive : p.active = [])
    (hcalls : p.calls = []) (hp1 : es.foldl (announceSource sdpOf) p = p1) :
    (p.run sdpOf es).calls = (es.filter fun e => e.2.enabled).map (announcement sdpOf) ++
      (p1.announced.entries.filter fun e => e.1 ∉ hashes sdpOf es).map deletion ∧
    (∀ h, (p.run sdpOf es).deletedCount.find? h =
      if (p1.announced.find? h).isSome then
        if maxDeletions ≤ (retracted sdpOf es p1 h).getD 0 then none
        else some ((retracted sdpOf es p1 h).getD 0)
      else retracted sdpOf es p1 h) ∧
    ∀ h, (p.run sdpOf es).announced.find? h =
      if (p1.announced.find? h).isSome ∧ maxDeletions ≤ (retracted sdpOf es p1 h).getD 0 then none
      else p1.announced.find? h := by
  obtain ⟨hact1, -, -, hcalls1⟩ := announce_spec sdpOf es p
  rw [hp1] at hact1 hcalls1
  rw [hactive] at hact1
  rw [hcalls, List.nil_append] at hcalls1
  obtain ⟨-, hann2, hdel2, hcalls2⟩ := delete_spec p1.announced.entries p1 p1.announced.keys_nodup
  simp only [run, hp1]
  generalize p1.announced.entries.foldl deleteSource p1 = p2 at *
  obtain ⟨hdel3, hann3, hcalls3⟩ := expire_spec p2.announced.entries p2 p2.announced.keys_nodup
  generalize p2.announced.entries.foldl expireSource p2 = p3 at *
  have hmem : ∀ h, h ∈ p1.active ↔ h ∈ hashes sdpOf es := fun h =>
    (hact1 h).trans (or_iff_right List.not_mem_nil)
  simp only [← isSome_find?_iff, hmem] at hdel2 hcalls2
  simp only [← isSome_find?_iff, hann2] at hdel3 hann3
  have hcount : ∀ h, p2.deletedCount.find? h = retracted sdpOf es p1 h := hdel2
  refine ⟨by rw [hcalls3, hcalls2, hcalls1], fun h => ?_, fun h => ?_⟩
  · rw [hdel3 h, hcount h]
  · rw [hann3 h, hcount h]

end

end SapPass

namespace SessionManager

/-- The SDP of a source as `process_sap` retrieves it. -/
def sapSdp (host : Host) (env : Env) (s : SessionManager) (info : StreamInfo) : Text :=
  getSourceSdp host env s.ptp s.driver.sampleRate info

/-- `process_sap`: the calls it makes, what it returns, and the state after it. -/
def processSap (host : Host) (env : Env) (s : SessionManager) :
    List SapCall × ℕ × SessionManager :=
  let p := SapPass.run (s.sapSdp host env) s.sources.entries
    { announced := s.announcedSources, deletedCount := s.deletedSourcesCount }
  (p.calls, p.sdpLenSum,
    { s with announcedSources := p.announced, deletedSourcesCount := p.deletedCount })

/-- Whether a hash is that of an enabled source. -/
def sapActive (host : Host) (env : Env) (s : SessionManager) (h : UInt32) : Bool :=
  decide (h ∈ SapPass.hashes (s.sapSdp host env) s.sources.entries)

/-- The deletions for a hash among the calls. -/
def deletions (calls : List SapCall) (h : UInt32) : ℕ :=
  calls.countP fun c => !c.isAnnounce && c.hash == h

/-- The two maps have the same keys. -/
def SapAligned (s : SessionManager) : Prop :=
  ∀ h, (s.announcedSources.find? h).isSome = (s.deletedSourcesCount.find? h).isSome

/-- A list of calls that are all announcements has no deletion. -/
theorem deletions_announcements (sdpOf : StreamInfo → Text) (es : List (UInt8 × StreamInfo))
    (h : UInt32) : deletions (es.map (SapPass.announcement sdpOf)) h = 0 := by
  simp [deletions, SapPass.announcement]

/-- Among distinct hashes, each is deleted at most once. -/
theorem deletions_deletion {es : List (UInt32 × UInt32 × UInt32 × UInt32)}
    (hnodup : (es.map Prod.fst).Nodup) (active : List UInt32) (h : UInt32) :
    deletions ((es.filter fun e => e.1 ∉ active).map SapPass.deletion) h =
      if h ∈ es.map Prod.fst ∧ h ∉ active then 1 else 0 := by
  have hcount : deletions ((es.filter fun e => e.1 ∉ active).map SapPass.deletion) h =
      ((es.filter fun e => e.1 ∉ active).map Prod.fst).count h := by
    simp only [deletions, List.count, List.countP_map]
    rfl
  have hsub : ((es.filter fun e => e.1 ∉ active).map Prod.fst).Nodup :=
    hnodup.sublist (List.filter_sublist.map _)
  have hmem : h ∈ (es.filter fun e => e.1 ∉ active).map Prod.fst ↔
      h ∈ es.map Prod.fst ∧ h ∉ active := by
    simp only [List.mem_map, List.mem_filter, decide_eq_true_eq]
    constructor
    · rintro ⟨e, ⟨he, hne⟩, rfl⟩
      exact ⟨⟨e, he, rfl⟩, hne⟩
    · rintro ⟨⟨e, he, rfl⟩, hne⟩
      exact ⟨e, ⟨he, hne⟩, rfl⟩
  rw [hcount, hsub.count]
  simp only [hmem]

/-- The three passes, hash by hash. -/
theorem run_spec (sdpOf : StreamInfo → Text) (es : List (UInt8 × StreamInfo)) (p : SapPass)
    (hactive : p.active = []) (hcalls : p.calls = [])
    (H : ∀ h, (p.announced.find? h).isSome = (p.deletedCount.find? h).isSome) :
    (∀ h, (p.run sdpOf es).deletedCount.find? h = Retraction.next maxDeletions
      (decide (h ∈ SapPass.hashes sdpOf es)) (p.deletedCount.find? h)) ∧
    (∀ h, ((p.run sdpOf es).announced.find? h).isSome =
      ((p.run sdpOf es).deletedCount.find? h).isSome) ∧
    ∃ gone : List (UInt32 × UInt32 × UInt32 × UInt32),
      (p.run sdpOf es).calls =
        (es.filter fun e => e.2.enabled).map (SapPass.announcement sdpOf) ++
          gone.map SapPass.deletion ∧
      ∀ h, deletions (gone.map SapPass.deletion) h =
        if Retraction.retracts (decide (h ∈ SapPass.hashes sdpOf es)) (p.deletedCount.find? h)
        then 1 else 0 := by
  obtain ⟨-, hann1, hdel1, -⟩ := SapPass.announce_spec sdpOf es p
  generalize hp1 : es.foldl (SapPass.announceSource sdpOf) p = p1 at *
  obtain ⟨hcalls, hdel, hann⟩ := SapPass.run_passes es hactive hcalls hp1
  have hannounced : ∀ h, (p1.announced.find? h).isSome =
      ((p.deletedCount.find? h).isSome || decide (h ∈ SapPass.hashes sdpOf es)) := fun h => by
    rw [hann1 h, H h]
  have hcount : ∀ h, SapPass.retracted sdpOf es p1 h =
      if h ∈ SapPass.hashes sdpOf es then none
      else (p.deletedCount.find? h).map (· + 1) := by
    intro h
    rw [SapPass.retracted, hannounced h, hdel1 h]
    by_cases hA : h ∈ SapPass.hashes sdpOf es
    · simp [hA]
    · cases p.deletedCount.find? h <;> simp [hA]
  refine ⟨fun h => ?_, fun h => ?_, _, hcalls, fun h => ?_⟩
  · rw [hdel h, hcount h, hannounced h]
    by_cases hA : h ∈ SapPass.hashes sdpOf es
    · simp [hA, Retraction.next, maxDeletions]
    · cases p.deletedCount.find? h <;> simp [hA, Retraction.next]
  · rw [hann h, hdel h, hcount h]
    by_cases hA : h ∈ SapPass.hashes sdpOf es
    · simp [hA, maxDeletions, hannounced h]
    · have hsome : (p1.announced.find? h).isSome = (p.deletedCount.find? h).isSome := by
        simp [hannounced h, hA]
      cases hd : p.deletedCount.find? h with
      | none =>
          rw [hd] at hsome
          have hnone : p1.announced.find? h = none := Option.not_isSome_iff_eq_none.mp (by simp [hsome])
          simp [hA, hnone]
      | some c => by_cases hc : maxDeletions ≤ c + 1 <;> simp [hA, hd, hc, hsome]
  · rw [deletions_deletion p1.announced.keys_nodup]
    simp only [← SapPass.isSome_find?_iff, hannounced]
    by_cases hA : h ∈ SapPass.hashes sdpOf es <;>
      cases p.deletedCount.find? h <;> simp [hA, Retraction.retracts]

/-- **One call, hash by hash**: a round of the counter of every hash, in which the
enabled sources are announced. -/
theorem processSap_spec (host : Host) (env : Env) (s : SessionManager) (H : s.SapAligned) :
    (s.processSap host env).2.2.SapAligned ∧
    (∀ h, (s.processSap host env).2.2.deletedSourcesCount.find? h =
      Retraction.next maxDeletions (s.sapActive host env h) (s.deletedSourcesCount.find? h)) ∧
    ((s.processSap host env).1.filter fun c => c.isAnnounce) =
      (s.sources.entries.filter fun e => e.2.enabled).map
        (SapPass.announcement (s.sapSdp host env)) ∧
    ∀ h, deletions (s.processSap host env).1 h =
      if Retraction.retracts (s.sapActive host env h) (s.deletedSourcesCount.find? h) then 1
      else 0 := by
  obtain ⟨hdel, hann, gone, hcalls, hgone⟩ := run_spec (s.sapSdp host env) s.sources.entries
    { announced := s.announcedSources, deletedCount := s.deletedSourcesCount } rfl rfl H
  refine ⟨hann, hdel, ?_, fun h => ?_⟩
  · have hkeep : (((s.sources.entries.filter fun e => e.2.enabled).map
        (SapPass.announcement (s.sapSdp host env))).filter fun c => c.isAnnounce) =
        (s.sources.entries.filter fun e => e.2.enabled).map
          (SapPass.announcement (s.sapSdp host env)) :=
      List.filter_eq_self.mpr fun c hc => by
        obtain ⟨e, -, rfl⟩ := List.mem_map.mp hc
        rfl
    have hdrop : ((gone.map SapPass.deletion).filter fun c => c.isAnnounce) = [] :=
      List.filter_eq_nil_iff.mpr fun c hc => by
        obtain ⟨e, -, rfl⟩ := List.mem_map.mp hc
        simp [SapPass.deletion]
    change List.filter _ (SapPass.run _ _ _).calls = _
    rw [hcalls, List.filter_append, hkeep, hdrop, List.append_nil]
  · change deletions (SapPass.run _ _ _).calls h = _
    rw [hcalls]
    have hsplit : ∀ xs ys, deletions (xs ++ ys) h = deletions xs h + deletions ys h :=
      fun xs ys => List.countP_append
    rw [hsplit, deletions_announcements, hgone, Nat.zero_add]
    rfl

/-! ## Sequences of calls -/

/-- The states in which a sequence of calls is made.  Between two calls everything
but the two maps may become anything: `s i` says what. -/
def sapState (host : Host) (env : ℕ → Env) (s : ℕ → SessionManager) : ℕ → SessionManager
  | 0 => { s 0 with announcedSources := .empty, deletedSourcesCount := .empty }
  | i + 1 =>
    let t := (processSap host (env i) (sapState host env s i)).2.2
    { s (i + 1) with
      announcedSources := t.announcedSources
      deletedSourcesCount := t.deletedSourcesCount }

/-- The calls to `SAP` of one call in the sequence. -/
def sapCalls (host : Host) (env : ℕ → Env) (s : ℕ → SessionManager) (i : ℕ) : List SapCall :=
  (processSap host (env i) (sapState host env s i)).1

/-- The state after one call in the sequence. -/
def sapAfter (host : Host) (env : ℕ → Env) (s : ℕ → SessionManager) (i : ℕ) : SessionManager :=
  (processSap host (env i) (sapState host env s i)).2.2

section
variable {host : Host} {env : ℕ → Env} {s : ℕ → SessionManager}

/-- The maps stay aligned. -/
theorem sapState_aligned (i : ℕ) : (sapState host env s i).SapAligned := by
  induction i with
  | zero => exact fun _ => rfl
  | succ i ih => exact (processSap_spec host (env i) _ ih).1

/-- The counters of a hash go through rounds. -/
theorem sapState_rounds (h : UInt32) :
    Retraction.Rounds maxDeletions (fun i => (sapState host env s i).sapActive host (env i) h)
      (fun i => (sapState host env s i).deletedSourcesCount.find? h) := fun i =>
  (processSap_spec host (env i) _ (sapState_aligned i)).2.1 h

end

/-- **The announcements of every sequence of calls.**  Every call announces each
enabled source once and deletes no active hash; a hash that has become inactive is
deleted in each of the next `maxDeletions` calls, in no later one, and then not
announced any more; after every call the two maps have the same keys, an active
hash has the count zero, and every other one a count below `maxDeletions`. -/
theorem sap_rounds (host : Host) (env : ℕ → Env) (s : ℕ → SessionManager) :
    (∀ i, ((sapCalls host env s i).filter fun c => c.isAnnounce) =
      ((sapState host env s i).sources.entries.filter fun e => e.2.enabled).map
        (SapPass.announcement ((sapState host env s i).sapSdp host (env i)))) ∧
    (∀ i h, (sapState host env s i).sapActive host (env i) h = true →
      deletions (sapCalls host env s i) h = 0 ∧
        (sapAfter host env s i).deletedSourcesCount.find? h = some 0) ∧
    (∀ i h k, (sapState host env s i).sapActive host (env i) h = true →
      (∀ j, i < j → j ≤ i + (k + 1) → (sapState host env s j).sapActive host (env j) h = false) →
      deletions (sapCalls host env s (i + (k + 1))) h = (if k < maxDeletions then 1 else 0) ∧
        (maxDeletions ≤ k + 1 →
          (sapAfter host env s (i + (k + 1))).announcedSources.find? h = none)) ∧
    (∀ i h, ((sapAfter host env s i).announcedSources.find? h).isSome =
        ((sapAfter host env s i).deletedSourcesCount.find? h).isSome ∧
      ((sapAfter host env s i).deletedSourcesCount.find? h = some 0 ↔
        (sapState host env s i).sapActive host (env i) h = true) ∧
      ∀ n, (sapAfter host env s i).deletedSourcesCount.find? h = some n →
        (sapState host env s i).sapActive host (env i) h = false → 1 ≤ n ∧ n ≤ maxDeletions - 1) := by
  have hspec : ∀ i, _ := fun i =>
    processSap_spec host (env i) (sapState host env s i) (sapState_aligned i)
  refine ⟨fun i => (hspec i).2.2.1, fun i h hactive => ⟨?_, ?_⟩, fun i h k hactive hquiet => ⟨?_, ?_⟩,
    fun i h => ⟨(hspec i).1 h, ?_, fun n hn hquiet => ?_⟩⟩
  · rw [sapCalls, (hspec i).2.2.2 h, hactive]
    rfl
  · rw [sapAfter, (hspec i).2.1 h, hactive]
    rfl
  · have hret := (sapState_rounds h).retracts_iff (by decide) hactive k hquiet
    rw [sapCalls, (hspec _).2.2.2 h]
    simp only [hret, decide_eq_true_eq]
  · intro hk
    have hcount : (sapAfter host env s (i + (k + 1))).deletedSourcesCount.find? h = none := by
      have := (sapState_rounds h).counter (by decide) hactive (k + 1) hquiet
      rwa [if_neg (by omega)] at this
    have halign := (hspec (i + (k + 1))).1 h
    rw [← sapAfter, hcount] at halign
    exact Option.isNone_iff_eq_none.mp (by simpa using halign)
  · have hrange := Retraction.inRange_next maxDeletions
      ((sapState host env s i).sapActive host (env i) h)
      ((sapState host env s i).deletedSourcesCount.find? h)
    rw [← (hspec i).2.1 h, ← sapAfter] at hrange
    cases hactive : (sapState host env s i).sapActive host (env i) h with
    | true => rw [hactive] at hrange; simpa [Retraction.InRange] using hrange
    | false =>
        rw [hactive] at hrange
        refine ⟨fun hzero => ?_, fun h => nomatch h⟩
        have := (hrange 0 hzero).1
        omega
  · have hrange := Retraction.inRange_next maxDeletions
      ((sapState host env s i).sapActive host (env i) h)
      ((sapState host env s i).deletedSourcesCount.find? h)
    rw [← (hspec i).2.1 h, ← sapAfter, hquiet] at hrange
    have := hrange n hn
    exact ⟨this.1, by omega⟩

/-- A source that is removed after the first call: the third call after that
retracts it once more, and the maps have forgotten it. -/
theorem sap_rounds_removed :
    deletions (sapCalls {} (fun _ => {}) (fun i =>
        if i = 0 then setSource 1 { enabled := true } (create {}) else create {}) 3)
      (SapPass.hashOf 1 (sapSdp {} {} (create {}) { enabled := true })) = 1 ∧
    (sapAfter {} (fun _ => {}) (fun i =>
        if i = 0 then setSource 1 { enabled := true } (create {}) else create {}) 3).announcedSources.find?
      (SapPass.hashOf 1 (sapSdp {} {} (create {}) { enabled := true })) = none := by
  have hquiet : ∀ j, 0 < j → (sapState {} (fun _ => {}) (fun i =>
      if i = 0 then setSource 1 { enabled := true } (create {}) else create {}) j).sapActive {} {}
        (SapPass.hashOf 1 (sapSdp {} {} (create {}) { enabled := true })) = false := by
    intro j hj
    obtain ⟨j, rfl⟩ : ∃ k, j = k + 1 := ⟨j - 1, by omega⟩
    rfl
  have h := (sap_rounds {} (fun _ => {}) (fun i =>
    if i = 0 then setSource 1 { enabled := true } (create {}) else create {})).2.2.1 0 _ 2
    (by decide +kernel) fun j hj _ => hquiet j hj
  exact ⟨h.1, h.2 (by decide)⟩

end SessionManager
end Aes67Daemon
