import Aes67Daemon.Nmos.Activated
import Aes67Daemon.Nmos.Integrity
import Aes67Daemon.Session.SinkUpdate

/-!
# Reading an activation back

The active map does not remember crosspoints.  For the ALSA channel an output is on it
looks for the first sink with a channel on it, sinks in the order of their ids, and
reports that one, or the ALSA channel itself.  So a crosspoint that was activated is
reported back exactly when the search happens to find it again.

## Main definitions

* `SessionManager.FirstOn` — the channel the search finds.
* `activeAt_source`, `activeAt_alsa` — what the active map reports.
* `CmHost.Reports` — a crosspoint is reported as it was requested.
* `CmHost.read_back_iff` — when it is.
-/
namespace Aes67Daemon

open Text

section
variable {α β : Type} [BEq α] [LawfulBEq α]

theorem lookup_map_of_mem {γ : Type} (key : γ → α) (val : γ → β) {l : List γ} {a : γ} (ha : a ∈ l)
    (hinj : ∀ b ∈ l, key b = key a → b = a) : (l.map fun b => (key b, val b)).lookup (key a) = some (val a) := by
  induction l with
  | nil => cases ha
  | cons b l ih =>
      rw [List.map_cons, List.lookup_cons]
      cases hb : key a == key b with
      | true =>
          have heq := hinj b List.mem_cons_self (beq_iff_eq.mp hb).symm
          rw [heq]
      | false =>
          rcases List.mem_cons.mp ha with rfl | ha
          · rw [beq_self_eq_true] at hb
            cases hb
          · exact ih ha fun c hc => hinj c (List.mem_cons_of_mem _ hc)

theorem lookup_map_eq_none {γ : Type} {key : γ → α} {val : γ → β} {l : List γ} {k : α}
    (h : ∀ b ∈ l, key b ≠ k) : (l.map fun b => (key b, val b)).lookup k = none := by
  induction l with
  | nil => rfl
  | cons b l ih =>
      have hb : (k == key b) = false := beq_eq_false_iff_ne.mpr (h b List.mem_cons_self).symm
      rw [List.map_cons, List.lookup_cons, hb]
      exact ih fun c hc => h c (List.mem_cons_of_mem _ hc)

end

theorem lookup_zipIdx {β γ : Type} (f : β → γ) (l : List β) (k n : ℕ) :
    ((l.zipIdx k).map fun c => (c.2, f c.1)).lookup (k + n) = l[n]?.map f := by
  induction l generalizing k n with
  | nil => rfl
  | cons b l ih =>
      rw [List.zipIdx_cons, List.map_cons, List.lookup_cons]
      cases n with
      | zero => simp
      | succ n =>
          have hne : (k + (n + 1) == k) = false := by simp
          have hnext := ih (k + 1) n
          rw [hne, show k + (n + 1) = k + 1 + n by omega]
          simpa using hnext

namespace SessionManager
variable {s : SessionManager}

/-! ## The search -/

/-- The channel `k` of the sink `i` is on the ALSA channel `c`, and no sink with a lower
id and no channel before it is. -/
def FirstOn (alsaAt : StreamChannel → Option UInt8) (i : UInt8) (k : ℕ) (c : Option UInt8) : Prop :=
  alsaAt ⟨.sink, i, k⟩ = c ∧ ∀ i' k', i' < i ∨ (i' = i ∧ k' < k) → alsaAt ⟨.sink, i', k'⟩ ≠ c

theorem alsaAt_sink {i : UInt8} {k : ℕ} {c : UInt8} : s.alsaAt ⟨.sink, i, k⟩ = some c ↔
    ∃ info, (i, info) ∈ s.sinks.entries ∧ (channelMap info.stream.leg0)[k]? = some c := by
  have hmap : s.channels .sink i = (s.sinks.find? i).map fun info => channelMap info.stream.leg0 :=
    channels_eq _ _
  rw [alsaAt, hmap, Option.bind_eq_some_iff]
  simp only [Option.map_eq_some_iff, SortedMap.mem_entries]
  constructor
  · rintro ⟨_, ⟨info, hfind, rfl⟩, hat⟩
    exact ⟨info, hfind, hat⟩
  · rintro ⟨info, hfind, hat⟩
    exact ⟨_, ⟨info, hfind, rfl⟩, hat⟩

theorem findSink_eq (c : UInt8) : s.findSinkForAlsaChannel c = s.sinks.entries.findSome? fun e =>
    ((channelMap e.2.stream.leg0).findIdx? (· == c)).map fun k => (e.1, k) := by
  rw [findSinkForAlsaChannel, getSinks, List.findSome?_map]
  rfl

theorem findSink_eq_none {c : UInt8} : s.findSinkForAlsaChannel c = none ↔
    ∀ i k, s.alsaAt ⟨.sink, i, k⟩ ≠ some c := by
  rw [findSink_eq, List.findSome?_eq_none_iff]
  constructor
  · intro h i k hat
    obtain ⟨info, hmem, hk⟩ := alsaAt_sink.mp hat
    have hnone := Option.map_eq_none_iff.mp (h (i, info) hmem)
    rw [List.findIdx?_eq_none_iff] at hnone
    exact absurd (hnone c (List.mem_of_getElem? hk)) (by simp)
  · intro h e he
    rw [Option.map_eq_none_iff, List.findIdx?_eq_none_iff]
    intro d hd
    obtain ⟨k, hk⟩ := List.mem_iff_getElem?.mp hd
    rw [beq_eq_false_iff_ne]
    rintro rfl
    exact h e.1 k (alsaAt_sink.mpr ⟨e.2, he, hk⟩)

/-- What the search finds is the first channel on the ALSA channel. -/
theorem firstOn_of_findSink {c i : UInt8} {k : ℕ} (h : s.findSinkForAlsaChannel c = some (i, k)) :
    FirstOn s.alsaAt i k (some c) := by
  rw [findSink_eq, List.findSome?_eq_some_iff] at h
  obtain ⟨before, e, after, hentries, hfound, hbefore⟩ := h
  obtain ⟨k', hidx, heq⟩ := Option.map_eq_some_iff.mp hfound
  simp only [Prod.mk.injEq] at heq
  obtain ⟨rfl, rfl⟩ := heq
  have hsorted := s.sinks.sorted
  rw [hentries] at hsorted
  obtain ⟨-, hright, hcross⟩ := List.pairwise_append.mp hsorted
  have hafter := (List.pairwise_cons.mp hright).1
  have hmem : e ∈ s.sinks.entries := by rw [hentries]; simp
  rw [List.findIdx?_eq_some_iff_getElem] at hidx
  obtain ⟨hlt, hat, hless⟩ := hidx
  refine ⟨alsaAt_sink.mpr ⟨e.2, hmem, ?_⟩, ?_⟩
  · rw [List.getElem?_eq_getElem hlt, beq_iff_eq.mp hat]
  · rintro i' k'' hlex hat'
    obtain ⟨info, hmem', hk⟩ := alsaAt_sink.mp hat'
    rcases hlex with hlow | ⟨rfl, hlow⟩
    · rw [hentries] at hmem'
      rcases List.mem_append.mp hmem' with hin | hin
      · have hnone := Option.map_eq_none_iff.mp (hbefore _ hin)
        rw [List.findIdx?_eq_none_iff] at hnone
        exact absurd (hnone c (List.mem_of_getElem? hk)) (by simp)
      · rcases List.mem_cons.mp hin with rfl | hin
        · exact lt_irrefl _ hlow
        · exact lt_asymm hlow (hafter _ hin)
    · have hsame : info = e.2 := by
        have h1 := SortedMap.mem_entries.mp hmem'
        have h2 := SortedMap.mem_entries.mp (show (e.1, e.2) ∈ s.sinks.entries from hmem)
        exact Option.some.inj (h1.symm.trans h2)
      rw [hsame] at hk
      obtain ⟨hlt', heq⟩ := List.getElem?_eq_some_iff.mp hk
      exact hless k'' hlow (by rw [heq]; exact beq_self_eq_true c)

/-- **The search finds the first channel on an ALSA channel**, sinks in the order of
their ids. -/
theorem findSink_eq_some {c i : UInt8} {k : ℕ} : s.findSinkForAlsaChannel c = some (i, k) ↔
    FirstOn s.alsaAt i k (some c) := by
  refine ⟨firstOn_of_findSink, fun h => ?_⟩
  cases hfind : s.findSinkForAlsaChannel c with
  | none => exact absurd h.1 (findSink_eq_none.mp hfind i k)
  | some found =>
      obtain ⟨i', k'⟩ := found
      have h' := firstOn_of_findSink hfind
      have hnot : ¬ (i' < i ∨ (i' = i ∧ k' < k)) := fun hlt => h.2 i' k' hlt h'.1
      have hnot' : ¬ (i < i' ∨ (i = i' ∧ k < k')) := fun hlt => h'.2 i k hlt h.1
      have hi : i' = i := by
        rcases lt_trichotomy i' i with hlt | heq | hgt
        · exact absurd (.inl hlt) hnot
        · exact heq
        · exact absurd (.inl hgt) hnot'
      have hk : k' = k := by
        rcases lt_trichotomy k' k with hlt | heq | hgt
        · exact absurd (.inr ⟨hi, hlt⟩) hnot
        · exact heq
        · exact absurd (.inr ⟨hi.symm, hgt⟩) hnot'
      rw [hi, hk]

end SessionManager
/-! ## What the active map reports -/

namespace CmHost
variable {h : CmHost} {s : SessionManager}

/-- The ids of different resources differ. -/
theorem makeResourceUuid_inj (hinj : Function.Injective2 h.makeUuid5) {t t' : Text} {i i' : UInt8}
    (ht : '-' ∉ t) (ht' : '-' ∉ t') (heq : h.makeResourceUuid t i = h.makeResourceUuid t' i') :
    t = t' ∧ i = i' :=
  Prod.mk.inj (NmosManager.nameText_inj (p := (t, i)) (q := (t', i')) ht ht' (hinj heq).2)

theorem is08OutputId_inj (hinj : Function.Injective2 h.makeUuid5) {i i' : UInt8}
    (heq : h.is08OutputId i = h.is08OutputId i') : i = i' :=
  (makeResourceUuid_inj hinj (by decide) (by decide) heq).2

theorem is08InputId_inj (hinj : Function.Injective2 h.makeUuid5) {i i' : UInt8}
    (heq : h.is08InputId i = h.is08InputId i') : i = i' :=
  (makeResourceUuid_inj hinj (by decide) (by decide) heq).2

theorem is08AlsaOutputId_inj (hinj : Function.Injective2 h.makeUuid5) {i i' : UInt8}
    (heq : h.is08AlsaOutputId i = h.is08AlsaOutputId i') : i = i' :=
  (makeResourceUuid_inj hinj (by decide) (by decide) heq).2

theorem outputId_ne_alsaOutputId (hinj : Function.Injective2 h.makeUuid5) (i i' : UInt8) :
    h.is08OutputId i ≠ h.is08AlsaOutputId i' := by
  intro heq
  exact absurd (makeResourceUuid_inj hinj (by decide) (by decide) heq).1 (by decide)

theorem inputId_ne_alsaInputId (hinj : Function.Injective2 h.makeUuid5) (i i' : UInt8) :
    h.is08InputId i ≠ h.is08AlsaInputId i' := by
  intro heq
  exact absurd (makeResourceUuid_inj hinj (by decide) (by decide) heq).1 (by decide)

/-- **What is reported at a channel of a source.** -/
theorem activeAt_source (hinj : Function.Injective2 h.makeUuid5) (i : UInt8) (k : ℕ) :
    h.activeAt s (h.is08OutputId i) k = (s.alsaAt ⟨.source, i, k⟩).map fun c => some (h.sourceInput s c) := by
  have halsa : (h.alsaChannelList.map fun ch => (h.is08AlsaOutputId ch, [(0, h.alsaInput s ch)])).lookup
      (h.is08OutputId i) = none :=
    lookup_map_eq_none fun ch _ => (outputId_ne_alsaOutputId hinj i ch).symm
  rw [activeAt, is08MapActiveJson, List.lookup_append, halsa, Option.or_none, SessionManager.alsaAt,
    SessionManager.channels_source]
  cases hget : s.getSource i with
  | none =>
      have hnone : (s.getSources.map fun src => (h.is08OutputId src.id,
          src.map.zipIdx.map fun c => (c.2, some (h.sourceInput s c.1)))).lookup (h.is08OutputId i) = none := by
        refine lookup_map_eq_none fun src hsrc heq => ?_
        obtain ⟨e, he, rfl⟩ := List.mem_map.mp hsrc
        obtain rfl : e.1 = i := is08OutputId_inj hinj heq
        rw [SessionManager.getSource, SortedMap.mem_entries.mp (show (e.1, e.2) ∈ s.sources.entries from he)] at hget
        cases hget
      rw [hnone]
      rfl
  | some src =>
      obtain ⟨info, hfind, rfl⟩ := Option.map_eq_some_iff.mp hget
      have hmem : SessionManager.getSource_ i info ∈ s.getSources :=
        List.mem_map.mpr ⟨(i, info), SortedMap.mem_entries.mpr hfind, rfl⟩
      have hrow := lookup_map_of_mem (fun src => h.is08OutputId src.id)
        (fun src => src.map.zipIdx.map fun c => (c.2, some (h.sourceInput s c.1))) hmem (by
          intro src hsrc heq
          obtain ⟨e, he, rfl⟩ := List.mem_map.mp hsrc
          obtain rfl : e.1 = i := is08OutputId_inj hinj heq
          have hfind' := SortedMap.mem_entries.mp (show (e.1, e.2) ∈ s.sources.entries from he)
          rw [Option.some.inj (hfind'.symm.trans hfind)])
      have hid : (SessionManager.getSource_ i info).id = i := rfl
      rw [hid] at hrow
      rw [hrow, Option.bind_some]
      have hcell := lookup_zipIdx (fun c => some (h.sourceInput s c)) (SessionManager.getSource_ i info).map 0 k
      rw [Nat.zero_add] at hcell
      rw [hcell]
      rfl

theorem mem_alsaChannelList {ch : UInt8} : ch ∈ h.alsaChannelList ↔ ch < h.alsaChannels := by
  rw [alsaChannelList, List.mem_map, UInt8.lt_iff_toNat_lt]
  constructor
  · rintro ⟨n, hn, rfl⟩
    rw [List.mem_range] at hn
    rw [UInt8.toNat_ofNat_of_lt' (hn.trans h.alsaChannels.toNat_lt)]
    exact hn
  · intro hlt
    exact ⟨ch.toNat, List.mem_range.mpr hlt, by simp⟩

/-- **What is reported at an ALSA output.** -/
theorem activeAt_alsa (hinj : Function.Injective2 h.makeUuid5) {ch : UInt8} (hch : ch < h.alsaChannels) :
    h.activeAt s (h.is08AlsaOutputId ch) 0 = some (h.alsaInput s ch) := by
  have hsources : (s.getSources.map fun src => (h.is08OutputId src.id,
      src.map.zipIdx.map fun c => (c.2, some (h.sourceInput s c.1)))).lookup (h.is08AlsaOutputId ch) = none :=
    lookup_map_eq_none fun src _ => outputId_ne_alsaOutputId hinj src.id ch
  have hrow := lookup_map_of_mem h.is08AlsaOutputId (fun ch => [(0, h.alsaInput s ch)])
    (mem_alsaChannelList.mpr hch) fun b _ heq => is08AlsaOutputId_inj hinj heq
  rw [activeAt, is08MapActiveJson, List.lookup_append, hsources, Option.none_or, hrow]
  rfl

/-! ## Reading back -/

/-- The active map reports, at the output channel of an item, the input and the
`channel_index` that were requested. -/
def Reports (h : CmHost) (s : SessionManager) (w : Is08WorkItem) : Prop :=
  ∃ k : ℕ, (k : ℤ) = w.inputChannel ∧
    h.activeAt s (h.outputUuid w) w.outputChannel.toNat = some (some (w.inputUuid, k))

/-- Two items are for the same channel of the same output. -/
def SameOutput (v w : Is08WorkItem) : Prop :=
  v.isSenderOutput = w.isSenderOutput ∧ v.outputId = w.outputId ∧ v.outputChannel = w.outputChannel

/-- When the channels of the streams are on the ALSA channels `alsaAt` and an output
channel is on `c`, the search finds the input of an item: the sink channel is the first
one on `c`; an ALSA input has the index zero and no sink channel is on `c`. -/
def Found (alsaAt : StreamChannel → Option UInt8) (c : Option UInt8) (w : Is08WorkItem) : Prop :=
  if w.inputIsSink then SessionManager.FirstOn alsaAt w.inputId w.inputChannel.toNat c
  else w.inputChannel = 0 ∧ ∀ i k, alsaAt ⟨.sink, i, k⟩ ≠ c

/-- The search for the ALSA channel of an output, when the input is a sink. -/
theorem find_sink_iff {c i : UInt8} {z : ℤ} (hz : 0 ≤ z) :
    (∃ k : ℕ, (k : ℤ) = z ∧ s.findSinkForAlsaChannel c = some (i, k)) ↔
      SessionManager.FirstOn s.alsaAt i z.toNat (some c) := by
  rw [← SessionManager.findSink_eq_some]
  constructor
  · rintro ⟨k, rfl, hfind⟩
    exact hfind
  · intro hfind
    exact ⟨z.toNat, Int.toNat_of_nonneg hz, hfind⟩

/-- What a channel of a source on the ALSA channel `c` is reported with. -/
theorem sourceInput_iff (hinj : Function.Injective2 h.makeUuid5) {out : Is08Output} {w : Is08WorkItem}
    (hin : IsInput h s out w.inputUuid w.inputChannel (w.inputIsSink, w.inputId)) {s' : SessionManager}
    {c : UInt8} (hc : w.inputIsSink = false → c = w.inputId) :
    (∃ k : ℕ, (k : ℤ) = w.inputChannel ∧ h.sourceInput s' c = (w.inputUuid, k)) ↔
      Found s'.alsaAt (some c) w := by
  cases hsink : w.inputIsSink with
  | true =>
      rw [hsink] at hin
      obtain ⟨huuid, sink, -, hnonneg, -⟩ := hin
      rw [Found, if_pos hsink, ← find_sink_iff hnonneg, huuid]
      refine exists_congr fun k => and_congr_right fun _ => ?_
      unfold sourceInput
      cases hfind : s'.findSinkForAlsaChannel c with
      | none =>
          refine iff_of_false (fun heq => ?_) (by simp)
          exact inputId_ne_alsaInputId hinj w.inputId c (Prod.mk.inj heq).1.symm
      | some found =>
          obtain ⟨i, j⟩ := found
          simp only [Prod.mk.injEq, Option.some.injEq]
          refine and_congr_left fun _ => ?_
          exact ⟨is08InputId_inj hinj, fun heq => by rw [heq]⟩
  | false =>
      rw [hsink] at hin
      obtain ⟨huuid, -⟩ := hin
      obtain rfl := hc hsink
      rw [Found, if_neg (by simp [hsink]), huuid, ← SessionManager.findSink_eq_none]
      unfold sourceInput
      cases hfind : s'.findSinkForAlsaChannel w.inputId with
      | none =>
          simp only [Prod.mk.injEq, true_and, and_true]
          constructor
          · rintro ⟨k, hk, rfl⟩
            exact hk.symm
          · intro hz
            exact ⟨0, hz.symm, rfl⟩
      | some found =>
          obtain ⟨i, j⟩ := found
          refine iff_of_false ?_ (by simp)
          rintro ⟨k, -, heq⟩
          exact inputId_ne_alsaInputId hinj i w.inputId (Prod.mk.inj heq).1

/-- What an ALSA output is reported with. -/
theorem alsaInput_iff (hinj : Function.Injective2 h.makeUuid5) {out : Is08Output} {w : Is08WorkItem}
    (hin : IsInput h s out w.inputUuid w.inputChannel (w.inputIsSink, w.inputId))
    (hsink : w.inputIsSink = true) {s' : SessionManager} {c : UInt8} :
    (∃ k : ℕ, (k : ℤ) = w.inputChannel ∧ h.alsaInput s' c = some (w.inputUuid, k)) ↔
      Found s'.alsaAt (some c) w := by
  rw [hsink] at hin
  obtain ⟨huuid, sink, -, hnonneg, -⟩ := hin
  rw [Found, if_pos hsink, ← find_sink_iff hnonneg, huuid]
  refine exists_congr fun k => and_congr_right fun _ => ?_
  unfold alsaInput
  rw [Option.map_eq_some_iff]
  constructor
  · rintro ⟨⟨i, j⟩, hfind, heq⟩
    simp only [Prod.mk.injEq] at heq
    obtain ⟨hi, rfl⟩ := heq
    rw [hfind, is08InputId_inj hinj hi]
  · intro hfind
    exact ⟨_, hfind, rfl⟩

theorem outputUuid_eq {uuid : Text} {out : Is08Output} {entry : Text × Ptree} {w : Is08WorkItem}
    (hout : IsOutput h s uuid out) (hw : Resolved h s out entry w) : h.outputUuid w = uuid := by
  rw [outputUuid, hw.sender, hw.outputId]
  cases hsender : out.isSenderOutput with
  | true => exact (hout.sender hsender).1.symm
  | false => exact (hout.alsa hsender).1.symm

/-- **What an item asks for is what an entry of the action says**: the output, its
channel, the input and the `channel_index`. -/
theorem requested {action : Ptree} {groups : List Is08Group} (haccept : h.resolveAction s action = .ok groups)
    {w : Is08WorkItem} (hw : w ∈ work groups) (hclear : w.clear = false) :
    ∃ output ∈ action.children, ∃ entry ∈ output.2.children, output.1 = h.outputUuid w ∧
      stoi entry.1 = some w.outputChannel ∧ entryInput entry.2 = some w.inputUuid ∧
      entryChannel entry.2 = w.inputChannel := by
  obtain ⟨output, houtput, entry, hentry, out, hout, hres⟩ := mem_work haccept hw
  obtain ⟨hinput, hchannel, -⟩ := hres.input hclear
  exact ⟨output, houtput, entry, hentry, (outputUuid_eq (resolveOutput_eq_ok hout) hres).symm, hres.channel,
    hinput, hchannel.symm⟩

/-- Items with the same target are for the same output channel, or both for ALSA
outputs. -/
theorem sameOutput_of_target {v w : Is08WorkItem} (hv : 0 ≤ v.outputChannel) (hw : 0 ≤ w.outputChannel)
    (hsender : w.isSenderOutput = true) (htarget : v.assign.target = w.assign.target) : SameOutput v w := by
  have hwt := Is08WorkItem.target_source hsender
  cases hvs : v.isSenderOutput with
  | true =>
      rw [hwt, Is08WorkItem.target_source hvs, StreamChannel.mk.injEq] at htarget
      exact ⟨hvs.trans hsender.symm, htarget.2.1, by omega⟩
  | false =>
      rw [hwt, Is08WorkItem.target_sink hvs, StreamChannel.mk.injEq] at htarget
      cases htarget.1

/-- **Reading an activation back.**  Where every item is for another output channel and
every stream could be added again, a crosspoint is reported as it was requested exactly
when, on the ALSA channel that its output channel got, the search finds its input. -/
theorem read_back_iff {h : CmHost} (hinj : Function.Injective2 h.makeUuid5) {readJson : Text → Option Ptree}
    {envs : ℕ → Env} {actionJson : Text} {action : Ptree} {groups : List Is08Group} {s : SessionManager}
    (hread : readJson actionJson = some action) (haccept : h.resolveAction s action = .ok groups)
    (honce : (work groups).Pairwise fun v w => ¬ SameOutput v w)
    (happlied : Along (SessionManager.applyStep h.host) (SessionManager.Applied h.host) s
      (rounds envs (work groups))) :
    ∃ s', h.is08ApplyActionJson readJson envs actionJson false s = some (.ok (canonicalJson groups), s') ∧
      ∀ before w after, work groups = before ++ w :: after → w.clear = false →
        (Reports h s' w ↔ Found (Assign.execAll s.alsaAt (assignments (work groups)))
          (w.assign.operand.eval (Assign.execAll s.alsaAt (assignments before))) w) := by
  obtain ⟨s', hrun, halsa, -, hkeep⟩ := SessionManager.run_rounds (ready_of_accepted haccept) happlied
  refine ⟨s', by rw [apply_accepted hread haccept, hrun]; rfl, ?_⟩
  intro before w after hwork hclear
  have hmem : w ∈ work groups := by rw [hwork]; simp
  obtain ⟨output, -, entry, -, out, hout, hres⟩ := mem_work haccept hmem
  have hin := resolveInput_eq_ok (hres.input hclear).2.2
  rw [← halsa]
  cases hsender : w.isSenderOutput with
  | true =>
      have htarget := Is08WorkItem.target_source hsender
      have hlast : LastFor w after := by
        intro v hv _ heq
        have hvmem : v ∈ work groups := by rw [hwork]; simp [hv]
        obtain ⟨_, _, _, _, _, _, hresv⟩ := mem_work haccept hvmem
        rw [hwork] at honce
        have hpair := (List.pairwise_cons.mp (List.pairwise_append.mp honce).2.1).1 v hv
        obtain ⟨hs, ho, hc⟩ := sameOutput_of_target hresv.nonneg hres.nonneg hsender heq
        exact hpair ⟨hs.symm, ho.symm, hc.symm⟩
      have hval : s'.alsaAt w.assign.target =
          w.assign.operand.eval (Assign.execAll s.alsaAt (assignments before)) := by
        rw [halsa, hwork, execAll_lastFor hclear hlast]
      have hsome := (ready_of_resolved (resolveOutput_eq_ok hout) hres hclear).2.2.1
      rw [← hkeep] at hsome
      obtain ⟨c, hc⟩ := Option.isSome_iff_exists.mp hsome
      have hconst : w.inputIsSink = false → c = w.inputId := by
        intro hsink
        rw [hc, Is08WorkItem.operand_alsa hsender hsink, Operand.eval_const] at hval
        exact Option.some.inj hval
      rw [Reports, outputUuid, hsender, if_pos rfl, activeAt_source hinj, ← htarget, ← hval, hc,
        Option.map_some, ← sourceInput_iff hinj hin hconst]
      simp only [Option.some.injEq]
  | false =>
      obtain ⟨-, hlist, hcount⟩ := (resolveOutput_eq_ok hout).alsa (hres.sender.symm.trans hsender)
      have hchannel : w.outputChannel.toNat = 0 := by
        have hlt := hres.lt
        omega
      have hsink : w.inputIsSink = true := by
        cases hsink : w.inputIsSink with
        | true => rfl
        | false =>
            rw [hsink] at hin
            rw [← hin.2, ← hres.sender, hsender]
      rw [← hres.outputId] at hlist
      rw [Reports, outputUuid, hsender, if_neg (by simp), hchannel, activeAt_alsa hinj (mem_alsaChannelList.mp hlist),
        Is08WorkItem.operand_output hsender, Operand.eval_const, ← alsaInput_iff hinj hin hsink]
      simp only [Option.some.injEq]

/-! ## Sample activations -/

/-- A host whose ids are different. -/
def mapHost : CmHost := { makeUuid5 := NmosManager.pairText, alsaChannels := 8 }

/-- The item that connects the first channel of a source to the first one of a sink. -/
def sinkItem (h : CmHost) (source sink : UInt8) : Is08WorkItem :=
  { isSenderOutput := true
    outputId := source
    outputChannel := 0
    clear := false
    inputIsSink := true
    inputId := sink
    inputUuid := h.is08InputId sink }

/-- A source, and sinks with their first channel on the same ALSA channel. -/
def sharedChannel (sinks : List UInt8) : List Request :=
  .addSource (.answering none (.ok 7) (.error (.driver 1))) (stereoSource 1 "a".toList) ::
    sinks.map fun id => .addSink (.answering none (.ok (7 + id.toUInt64)) (.error (.driver 1)))
      { stereoSink id (ofNat id.toNat) (SessionManager.versionSdp "1".toList) with map := [2, 3] }

/-- What an activation with one item does, from its evaluation. -/
theorem run_actionText {h : CmHost} {s : SessionManager} {w : Is08WorkItem} {env : Env} {ret : Ret}
    (haccept : (Json.read (h.actionText w)).bind (fun action =>
      (h.resolveAction s action).toOption.map work) = some [w])
    (hret : (s.applyItem h.host env w).map Prod.fst = some (some ret)) :
    ∃ action groups s', Json.read (h.actionText w) = some action ∧ h.resolveAction s action = .ok groups ∧
      work groups = [w] ∧ s.applyItem h.host env w = some (some ret, s') ∧
      h.is08ApplyActionJson Json.read (fun _ => env) (h.actionText w) false s =
        some (.ok (canonicalJson groups), s') := by
  obtain ⟨action, hread, haccept⟩ := Option.bind_eq_some_iff.mp haccept
  obtain ⟨groups, haccept, hwork⟩ := Option.map_eq_some_iff.mp haccept
  obtain ⟨⟨_, s'⟩, happly, rfl⟩ := Option.map_eq_some_iff.mp hret
  have hok := toOption_eq_some haccept
  refine ⟨action, groups, s', hread, hok, hwork, happly, ?_⟩
  rw [apply_accepted hread hok, hwork]
  simp [rounds, run_cons, SessionManager.applyStep, happly]

/-- A source is connected to the only sink. -/
theorem read_back_sink : ∃ s s' canonical, run (SessionManager.step {}) (.create {}) (sharedChannel [1]) = some s ∧
    mapHost.is08ApplyActionJson Json.read (fun _ => .answering none (.ok 10) (.ok 11))
      (mapHost.actionText (mapHost.sinkItem 1 1)) false s = some (.ok canonical, s') ∧
    Reports mapHost s' (mapHost.sinkItem 1 1) := by
  have heval : (run (SessionManager.step {}) (SessionManager.create {}) (sharedChannel [1])).map
      (fun s => ((Json.read (mapHost.actionText (mapHost.sinkItem 1 1))).bind fun action =>
          (mapHost.resolveAction s action).toOption.map work,
        (s.applyItem mapHost.host (.answering none (.ok 10) (.ok 11)) (mapHost.sinkItem 1 1)).map Prod.fst,
        s.findSinkForAlsaChannel 2)) = some (some [mapHost.sinkItem 1 1], some (some .ok), some (1, 0)) := by
    decide +kernel
  obtain ⟨s, hrun, heq⟩ := Option.map_eq_some_iff.mp heval
  simp only [Prod.mk.injEq] at heq
  obtain ⟨haccept, hret, hfind⟩ := heq
  obtain ⟨hat, hfirst⟩ := SessionManager.findSink_eq_some.mp hfind
  obtain ⟨action, groups, t, hread, hok, hwork, happly, -⟩ := run_actionText haccept hret
  have hround : Along (SessionManager.applyStep mapHost.host) (SessionManager.Applied mapHost.host) s
      (rounds (fun _ => .answering none (.ok 10) (.ok 11)) (work groups)) := by
    rw [hwork]
    exact along_cons.mpr ⟨fun _ => ⟨t, happly⟩, fun _ _ => trivial⟩
  obtain ⟨s', happlied, hreports⟩ := read_back_iff NmosManager.pairText_injective hread hok
    (hwork ▸ List.pairwise_singleton ..) hround
  refine ⟨s, s', _, hrun, happlied, (hreports [] _ [] hwork rfl).mpr ?_⟩
  have hkeep : ∀ i k, (mapHost.sinkItem 1 1).assign.exec s.alsaAt ⟨.sink, i, k⟩ = s.alsaAt ⟨.sink, i, k⟩ :=
    fun i k => Assign.exec_of_ne (by simp [sinkItem, Is08WorkItem.assign])
  rw [hwork]
  refine ⟨hkeep 1 0, fun i k hlt heq => ?_⟩
  exact hfirst i k hlt (((hkeep i k).symm.trans heq).trans hat)

/-- An activation with one item is accepted, answered with success, and the active map
reports something else afterwards. -/
def Misreported (h : CmHost) (requests : List Request) (env : Env) (w : Is08WorkItem) : Prop :=
  ∃ s action groups s', run (SessionManager.step h.host) (.create h.host) requests = some s ∧
    Json.read (h.actionText w) = some action ∧ h.resolveAction s action = .ok groups ∧ work groups = [w] ∧
    h.is08ApplyActionJson Json.read (fun _ => env) (h.actionText w) false s =
      some (.ok (canonicalJson groups), s') ∧
    ¬ Reports h s' w

theorem misreported {h : CmHost} {requests : List Request} {env : Env} {w : Is08WorkItem} (ret : Ret) (u : Text)
    (k : ℕ) (hne : u ≠ w.inputUuid)
    (heval : (run (SessionManager.step h.host) (.create h.host) requests).map (fun s =>
      ((Json.read (h.actionText w)).bind fun action => (h.resolveAction s action).toOption.map work,
        (s.applyItem h.host env w).map fun served => (served.1,
          decide (h.activeAt served.2 (h.outputUuid w) w.outputChannel.toNat = some (some (u, k)))))) =
      some (some [w], some (some ret, true))) : Misreported h requests env w := by
  obtain ⟨s, hrun, heq⟩ := Option.map_eq_some_iff.mp heval
  simp only [Prod.mk.injEq] at heq
  obtain ⟨haccept, hserved⟩ := heq
  obtain ⟨⟨_, t⟩, happly, heq⟩ := Option.map_eq_some_iff.mp hserved
  simp only [Prod.mk.injEq, decide_eq_true_eq] at heq
  obtain ⟨rfl, hactive⟩ := heq
  obtain ⟨action, groups, s', hread, hok, hwork, happly', hanswer⟩ :=
    run_actionText haccept (congrArg (Option.map Prod.fst) happly)
  rw [happly, Option.some.injEq, Prod.mk.injEq] at happly'
  obtain ⟨-, rfl⟩ := happly'
  refine ⟨s, action, groups, t, hrun, hread, hok, hwork, hanswer, ?_⟩
  rintro ⟨k', -, hreport⟩
  rw [hactive] at hreport
  exact hne (congrArg Prod.fst (Option.some.inj (Option.some.inj hreport)))

/-- The driver accepts every stream.  A source that is connected to the second of two
sinks on one ALSA channel is reported with the first, and one whose destination cannot
be resolved again is reported as it was. -/
theorem read_back_fails :
    Misreported mapHost (sharedChannel [1, 2]) (.answering none (.ok 10) (.ok 11)) (mapHost.sinkItem 1 2) ∧
    Misreported mapHost
      [.addSource { Env.answering none (.ok 7) (.ok 8) with arpCache := fun _ _ => some [2, 0, 0, 0, 0, 1] }
        { stereoSource 1 "a".toList with address := "10.0.0.7".toList }]
      (.answering none (.ok 10) (.ok 11)) (mapHost.alsaItem 1 5) := by
  constructor
  · exact misreported .ok (mapHost.is08InputId 1) 0 (by decide +kernel) (by decide +kernel)
  · exact misreported (.error .cannotRetrieveMac) (mapHost.is08AlsaInputId 0) 0
      (by decide +kernel) (by decide +kernel)

end CmHost
end Aes67Daemon
