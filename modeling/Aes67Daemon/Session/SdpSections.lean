import Aes67Daemon.Session.ForeignMedia

/-!
# The attributes of a section

A section of a description writes to the record of its leg line by line, and each group of
fields is written by attributes with certain names.  If the section has each attribute once,
then in any order of the attributes the record ends up the same, but for the number of samples
of a packet: that one depends on whether the rate comes before the packet time.

## Main definitions

* `Permuted` — the attributes of a section in another order.
* `OneEachIn` — each attribute once, and one timestamp offset.
* `SdpParser.sectionWrites` — what a section writes to a leg.
* `SdpParser.unsampled_replay`, `SdpParser.samples_section` — what is left of it in another order.
-/
namespace Aes67Daemon

open Text

/-! ## Attributes in another order -/

/-- The name of an attribute, with or without a value. -/
def attributeName (l : Text) : Option Text :=
  match trim l with
  | 'a' :: '=' :: val => some (((breakAt ':' val).map Prod.fst).getD val)
  | _ => none

theorem attributeName_eq {l val : Text} (h : trim l = 'a' :: '=' :: val) :
    attributeName l = some (((breakAt ':' val).map Prod.fst).getD val) := by
  simp only [attributeName, h]

instance (l : Text) : Decidable (MediaLevel l) :=
  decidable_of_iff ((['i', 'c', 'b', 'k', 'a'].any fun c => decide (HasType c l)) = true) <| by
    simp only [MediaLevel, List.any_eq_true, decide_eq_true_eq]

/-- The lines of a section with the attributes in another order, and the other lines where they
were. -/
def Permuted (sec sec' : List Text) : Prop :=
  sec.Perm sec' ∧ List.Forall₂ (fun l l' => l = l' ∨ (HasType 'a' l ∧ HasType 'a' l')) sec sec'

/-- A section has each attribute once, and not the timestamp offset as a synchronisation time and
as a media clock. -/
def OneEachIn (sec : List Text) : Prop :=
  (sec.filterMap attributeName).Nodup ∧
    ¬ ("sync-time".toList ∈ sec.filterMap attributeName ∧ "mediaclk".toList ∈ sec.filterMap attributeName)

instance (sec : List Text) : Decidable (OneEachIn sec) := inferInstanceAs (Decidable (_ ∧ _))

namespace SdpParser

/-- What the lines of a section write to a leg, in the state in which it starts. -/
def sectionWrites (host : Host) (p : SdpParser) (sec : List Text) (first : Bool) : List LegWrite :=
  writesTo (sec.flatMap (p.writes host)) first

end SdpParser

namespace Permuted
variable {sec sec' : List Text}

theorem symm (h : Permuted sec sec') : Permuted sec' sec := by
  refine ⟨h.1.symm, h.2.flip.imp fun l l' hl => ?_⟩
  rcases hl with rfl | ⟨hl, hl'⟩
  · exact .inl rfl
  · exact .inr ⟨hl', hl⟩

/-- Lines that are no attributes stay in order. -/
theorem filter_eq (h : Permuted sec sec') {concerns : Text → Bool} (hconcerns : ∀ l, HasType 'a' l → concerns l = false) :
    sec.filter concerns = sec'.filter concerns := by
  obtain ⟨-, h⟩ := h
  induction h with
  | nil => rfl
  | cons hl h ih =>
      rcases hl with rfl | ⟨hl, hl'⟩
      · rw [List.filter_cons, List.filter_cons, ih]
      · rw [List.filter_cons_of_neg (by simp [hconcerns _ hl]), List.filter_cons_of_neg (by simp [hconcerns _ hl']), ih]

end Permuted

/-- Two lists with the same elements are the same if they have at most one. -/
theorem perm_eq_of_length_le_one {α : Type} {as bs : List α} (h : as.Perm bs) (hlength : as.length ≤ 1) : as = bs := by
  match as with
  | [] => exact h.nil_eq
  | [a] => exact h.singleton_eq

theorem OneEachIn.perm {sec sec' : List Text} (h : OneEachIn sec) (hperm : sec.Perm sec') : OneEachIn sec' := by
  have hnames := hperm.filterMap attributeName
  refine ⟨hnames.nodup_iff.mp h.1, fun hboth => h.2 ?_⟩
  exact ⟨hnames.mem_iff.mpr hboth.1, hnames.mem_iff.mpr hboth.2⟩

/-! ## What the attributes of a section write -/

/-- The attributes that write a group of fields. -/
def LegGroup.names : LegGroup → List Text
  | port | connection => []
  | format => ["rtpmap".toList]
  | offset => ["sync-time".toList, "mediaclk".toList]
  | samples => ["ptime".toList]

/-- A line can write a group of fields. -/
def bears (g : LegGroup) (l : Text) : Bool :=
  if g = .connection then decide (HasType 'c' l) else (attributeName l).any fun n => g.names.contains n

theorem group_of_attribute {host : Host} {payload : UInt8} {name value : Text} {w : LegWrite}
    (hw : w ∈ SdpParser.attributeWrite host payload name value) : w.group ≠ .connection ∧ name ∈ w.group.names := by
  have hoffset : ∀ value, w ∈ SdpParser.offsetWrite value → w.group = .offset := by
    intro value hw
    rw [List.mem_singleton.mp hw]
    rfl
  unfold SdpParser.attributeWrite at hw
  split at hw
  · rename_i hname
    unfold SdpParser.formatWrite at hw
    split at hw
    · split at hw
      · rw [List.mem_singleton.mp hw]
        exact ⟨LegGroup.noConfusion, List.mem_singleton.mpr hname⟩
      · cases hw
    · cases hw
  split at hw
  · rename_i hname
    rw [hoffset _ hw]
    exact ⟨LegGroup.noConfusion, List.mem_cons.mpr (.inl hname)⟩
  split at hw
  · cases hw
  split at hw
  · rename_i hname
    obtain ⟨time, -, rfl⟩ := Option.map_eq_some_iff.mp (Option.mem_toList.mp hw)
    exact ⟨LegGroup.noConfusion, List.mem_singleton.mpr hname⟩
  split at hw
  · rename_i hname
    have hgroup : w.group = .offset := by
      unfold SdpParser.clockWrite at hw
      split at hw
      · split at hw
        · exact hoffset _ hw
        · cases hw
      · cases hw
    rw [hgroup]
    exact ⟨LegGroup.noConfusion, List.mem_cons_of_mem _ (List.mem_singleton.mpr hname)⟩
  · cases hw

/-- **What a line of a section writes, it bears.** -/
theorem bears_of_writes {host : Host} {p : SdpParser} {l : Text} (hl : MediaLevel l) {w : ℤ × LegWrite}
    (hw : w ∈ p.writes host l) : bears w.2.group l = true := by
  obtain ⟨c, hc, val, htrim⟩ := hl
  have hconnection : ∀ w : LegWrite, w ∈ SdpParser.connectionWrite val → w.group = .connection := by
    intro w hw
    unfold SdpParser.connectionWrite at hw
    split at hw
    · rw [List.mem_singleton.mp hw]
      rfl
    · cases hw
  have hplain : c = 'c' → ∀ w : LegWrite, w ∈ SdpParser.connectionWrite val → bears w.group l = true := by
    rintro rfl w hw
    unfold bears
    rw [hconnection w hw, if_pos rfl]
    exact decide_eq_true ⟨val, htrim⟩
  unfold SdpParser.writes at hw
  rw [htrim] at hw
  dsimp only at hw
  split at hw
  · rename_i ha
    subst ha
    split at hw
    · rename_i hbreak
      obtain ⟨w', hw', rfl⟩ := List.mem_map.mp hw
      obtain ⟨hother, hname⟩ := group_of_attribute hw'
      unfold bears
      rw [if_neg hother]
      rw [attributeName_eq htrim, hbreak]
      exact List.contains_iff_mem.mpr hname
    · cases hw
  split at hw
  · rename_i hm
    subst hm
    exact absurd hc (by decide)
  split at hw
  · rename_i hcon
    split at hw
    · obtain ⟨w', hw', hmem⟩ := List.mem_flatMap.mp hw
      rcases List.mem_pair.mp hmem with rfl | rfl
      · exact hplain hcon w' hw'
      · exact hplain hcon w' hw'
    · cases hw
    · obtain ⟨w', hw', rfl⟩ := List.mem_map.mp hw
      exact hplain hcon w' hw'
  · cases hw

/-- The attributes of a section that can write a group of fields. -/
theorem length_filter_bears {sec : List Text} (hone : OneEachIn sec) {g : LegGroup} (hg : g ≠ .connection) :
    (sec.filter (bears g)).length ≤ 1 := by
  -- as many as there are names
  have hcount : ∀ ls : List Text, (ls.filter (bears g)).length =
      ((ls.filterMap attributeName).filter fun n => g.names.contains n).length := by
    intro ls
    induction ls with
    | nil => rfl
    | cons l ls ih =>
        have hl : bears g l = (attributeName l).any fun n => g.names.contains n := if_neg hg
        cases hname : attributeName l with
        | none =>
            rw [hname] at hl
            rw [List.filter_cons_of_neg (by rw [hl]; exact Bool.false_ne_true), List.filterMap_cons_none hname, ih]
        | some n =>
            rw [hname] at hl
            rw [List.filterMap_cons_some hname, List.filter_cons, List.filter_cons, hl]
            dsimp only [Option.any]
            split
            · rw [List.length_cons, List.length_cons, ih]
            · exact ih
  rw [hcount]
  obtain ⟨hnodup, hclocks⟩ := hone
  have hsub := hnodup.filter fun n => g.names.contains n
  -- and these are all the same
  have hsame : ∀ n ∈ (sec.filterMap attributeName).filter (fun n => g.names.contains n),
      ∀ n' ∈ (sec.filterMap attributeName).filter (fun n => g.names.contains n), n = n' := by
    intro n hn n' hn'
    obtain ⟨hmem, hn⟩ := List.mem_filter.mp hn
    obtain ⟨hmem', hn'⟩ := List.mem_filter.mp hn'
    replace hn := List.contains_iff_mem.mp hn
    replace hn' := List.contains_iff_mem.mp hn'
    cases g with
    | port => cases hn
    | connection => cases hn
    | format => exact (List.mem_singleton.mp hn).trans (List.mem_singleton.mp hn').symm
    | samples => exact (List.mem_singleton.mp hn).trans (List.mem_singleton.mp hn').symm
    | offset =>
        rcases List.mem_pair.mp hn with rfl | rfl <;> rcases List.mem_pair.mp hn' with rfl | rfl
        · rfl
        · exact absurd ⟨hmem, hmem'⟩ hclocks
        · exact absurd ⟨hmem', hmem⟩ hclocks
        · rfl
  generalize (sec.filterMap attributeName).filter (fun n => g.names.contains n) = ns at hsub hsame
  match ns with
  | [] => exact Nat.zero_le _
  | [_] => exact le_refl _
  | n :: n' :: _ =>
      have heq := hsame n List.mem_cons_self n' (List.mem_cons_of_mem _ List.mem_cons_self)
      exact absurd (heq ▸ List.mem_cons_self) (List.nodup_cons.mp hsub).1

/-- A line that bears a group that no other line bears. -/
theorem not_bears_of_split {g : LegGroup} {s s' : List Text} {l : Text}
    (hlength : ((s ++ l :: s').filter (bears g)).length ≤ 1) (hl : bears g l = true) :
    (∀ l' ∈ s, bears g l' = false) ∧ ∀ l' ∈ s', bears g l' = false := by
  rw [List.filter_append, List.filter_cons_of_pos hl, List.length_append, List.length_cons] at hlength
  constructor
  · intro l' hl'
    have hnil := List.eq_nil_of_length_eq_zero (show (s.filter (bears g)).length = 0 by omega)
    exact Bool.eq_false_iff.mpr (List.filter_eq_nil_iff.mp hnil l' hl')
  · intro l' hl'
    have hnil := List.eq_nil_of_length_eq_zero (show (s'.filter (bears g)).length = 0 by omega)
    exact Bool.eq_false_iff.mpr (List.filter_eq_nil_iff.mp hnil l' hl')

theorem Permuted.filter_bears {sec sec' : List Text} (h : Permuted sec sec') (hone : OneEachIn sec) (g : LegGroup) :
    sec.filter (bears g) = sec'.filter (bears g) := by
  by_cases hg : g = .connection
  · subst hg
    refine h.filter_eq fun l hl => ?_
    obtain ⟨val, htrim⟩ := hl
    refine decide_eq_false fun hc => ?_
    obtain ⟨val', htrim'⟩ := hc
    exact absurd (List.cons.inj (htrim.symm.trans htrim')).1 (by decide)
  · exact perm_eq_of_length_le_one (h.1.filter _) (length_filter_bears hone hg)

/-! ## The record of a leg after a section -/

/-- The record but for the number of samples of a packet. -/
def TRTPStreamInfo.unsampled (s : TRTPStreamInfo) : TRTPStreamInfo := { s with ui32MaxSamplesPerPacket := 0 }

theorem TRTPStreamInfo.unsampled_eq_iff (a b : TRTPStreamInfo) : a.unsampled = b.unsampled ↔ a.fixedPart = b.fixedPart ∧
    (a.ui32DestIP, a.byTTL) = (b.ui32DestIP, b.byTTL) ∧
    (a.cCodec, a.byWordLength, a.ui32SamplingRate) = (b.cCodec, b.byWordLength, b.ui32SamplingRate) ∧
    a.ui32RTPTimestampOffset = b.ui32RTPTimestampOffset := by
  rw [eq_iff_groups]
  constructor
  · rintro ⟨hfixed, hconnection, hformat, hoffset, -⟩
    exact ⟨hfixed, hconnection, hformat, hoffset⟩
  · rintro ⟨hfixed, hconnection, hformat, hoffset⟩
    exact ⟨hfixed, hconnection, hformat, hoffset, rfl⟩

theorem TRTPStreamInfo.rate_of_unsampled {a b : TRTPStreamInfo} (h : a.unsampled = b.unsampled) :
    a.ui32SamplingRate = b.ui32SamplingRate := by
  obtain ⟨-, -, hformat, -⟩ := (TRTPStreamInfo.unsampled_eq_iff a b).mp h
  exact (Prod.mk.inj (Prod.mk.inj hformat).2).2

theorem TRTPStreamInfo.eq_of_unsampled {a b : TRTPStreamInfo} (h : a.unsampled = b.unsampled)
    (hsamples : a.ui32MaxSamplesPerPacket = b.ui32MaxSamplesPerPacket) : a = b := by
  obtain ⟨hfixed, hconnection, hformat, hoffset⟩ := (TRTPStreamInfo.unsampled_eq_iff a b).mp h
  exact (TRTPStreamInfo.eq_iff_groups a b).mpr ⟨hfixed, hconnection, hformat, hoffset, hsamples⟩

namespace TRTPStreamInfo
variable {a b : TRTPStreamInfo}

theorem unsampled_replay_same (h : a.unsampled = b.unsampled) (ws : List LegWrite) :
    (a.replay ws).unsampled = (b.replay ws).unsampled := by
  rw [unsampled_eq_iff] at h ⊢
  obtain ⟨hfixed, hconnection, hformat, hoffset⟩ := h
  refine ⟨replay_fixedPart ws hfixed, ?_, ?_, ?_⟩
  · exact sets_connection.foldl_congr rfl hconnection
  · exact sets_format.foldl_congr rfl hformat
  · exact sets_offset.foldl_congr rfl hoffset

/-- A difference in the number of samples is gone when a packet time is written. -/
theorem replay_eq_iff_of_unsampled (h : a.unsampled = b.unsampled) (ws : List LegWrite) :
    a.replay ws = b.replay ws ↔ a = b ∨ ∃ w ∈ ws, w.group = .samples := by
  have hrate := rate_of_unsampled h
  obtain ⟨hfixed, hconnection, hformat, hoffset⟩ := (unsampled_eq_iff a b).mp h
  rw [replay_eq_iff ws hfixed]
  constructor
  · intro H
    rcases H.samples with ⟨-, hsamples⟩ | ⟨before, time, after, rfl, -, -⟩
    · exact .inl (eq_of_unsampled h hsamples)
    · exact .inr ⟨.packetTime time, List.mem_append_right _ List.mem_cons_self, rfl⟩
  · intro H
    refine ⟨.inl (Prod.mk.inj hconnection), .inl ?_, .inl hoffset, ?_⟩
    · obtain ⟨hcodec, hrest⟩ := Prod.mk.inj hformat
      exact ⟨hcodec, Prod.mk.inj hrest⟩
    · by_cases htimed : ∃ w ∈ ws, w.group = .samples
      · obtain ⟨before, w, after, hws, hgroup, hafter⟩ := exists_last htimed
        cases w with
        | packetTime time => exact .inr ⟨before, time, after, hws, hafter, .inl (by rw [hrate])⟩
        | opened port payload => cases hgroup
        | connection destIP ttl => cases hgroup
        | format codec word rate => cases hgroup
        | offset n => cases hgroup
      · have heq := H.resolve_right htimed
        exact .inl ⟨fun w hw hgroup => htimed ⟨w, hw, hgroup⟩, by rw [heq]⟩

end TRTPStreamInfo

namespace SdpParser
variable {host : Host} {ptp : Ptp} {p p' q : SdpParser} {sec sec' : List Text} {first : Bool}

theorem writesTo_append (ws ws' : List (ℤ × LegWrite)) (first : Bool) :
    writesTo (ws ++ ws') first = writesTo ws first ++ writesTo ws' first := by
  simp only [writesTo, List.filter_append, List.map_append]

theorem sectionWrites_append (s s' : List Text) :
    p.sectionWrites host (s ++ s') first = p.sectionWrites host s first ++ p.sectionWrites host s' first := by
  rw [sectionWrites, List.flatMap_append, writesTo_append]
  rfl

theorem sectionWrites_cons (l : Text) (s : List Text) :
    p.sectionWrites host (l :: s) first = p.sectionWrites host [l] first ++ p.sectionWrites host s first :=
  sectionWrites_append [l] s

theorem bears_of_mem {l : Text} (hl : MediaLevel l) {w : LegWrite} (hw : w ∈ p.sectionWrites host [l] first) :
    bears w.group l = true := by
  obtain ⟨w', hw', rfl⟩ := List.mem_map.mp hw
  obtain ⟨l', hl', hw'⟩ := List.mem_flatMap.mp (List.mem_filter.mp hw').1
  rw [List.mem_singleton.mp hl'] at hw'
  exact bears_of_writes hl hw'

/-- A write of a section is one of a line of it. -/
theorem mem_sectionWrites {w : LegWrite} : w ∈ p.sectionWrites host sec first ↔
    ∃ l ∈ sec, w ∈ p.sectionWrites host [l] first := by
  induction sec with
  | nil =>
      constructor
      · intro hw
        cases hw
      · rintro ⟨l, hl, -⟩
        cases hl
  | cons l sec ih =>
      rw [sectionWrites_cons, List.mem_append, ih]
      simp only [List.mem_cons, exists_eq_or_imp]

/-- Only the lines that bear a group write it. -/
theorem filter_sectionWrites (hsec : ∀ l ∈ sec, MediaLevel l) (g : LegGroup) :
    (p.sectionWrites host sec first).filter (fun w => w.group = g) =
      (p.sectionWrites host (sec.filter (bears g)) first).filter fun w => w.group = g := by
  induction sec with
  | nil => rfl
  | cons l sec ih =>
      have hrest := ih fun l' hl' => hsec l' (List.mem_cons_of_mem _ hl')
      rw [sectionWrites_cons, List.filter_append, hrest]
      cases hl : bears g l with
      | true =>
          rw [List.filter_cons_of_pos hl, sectionWrites_cons l (sec.filter _), List.filter_append]
      | false =>
          rw [List.filter_cons_of_neg (Bool.eq_false_iff.mp hl)]
          have hnone : (p.sectionWrites host [l] first).filter (fun w => w.group = g) = [] := by
            refine List.filter_eq_nil_iff.mpr fun w hw hgroup => ?_
            have hbears := bears_of_mem (hsec l List.mem_cons_self) hw
            rw [of_decide_eq_true hgroup, hl] at hbears
            exact Bool.false_ne_true hbears
          rw [hnone, List.nil_append]

/-- **Two orders of a section leave the same record**, but for the number of samples. -/
theorem unsampled_replay (hsec : ∀ l ∈ sec, MediaLevel l) (hone : OneEachIn sec) (hperm : Permuted sec sec')
    {a b : TRTPStreamInfo} (h : a.unsampled = b.unsampled) :
    (a.replay (p.sectionWrites host sec first)).unsampled = (b.replay (p.sectionWrites host sec' first)).unsampled := by
  have hsec' : ∀ l ∈ sec', MediaLevel l := fun l hl => hsec l (hperm.1.mem_iff.mpr hl)
  have hgroups : ∀ g, (p.sectionWrites host sec first).filter (fun w => w.group = g) =
      (p.sectionWrites host sec' first).filter fun w => w.group = g := by
    intro g
    rw [filter_sectionWrites hsec, filter_sectionWrites hsec', hperm.filter_bears hone]
  have hfixed : ∀ sec : List Text, (∀ l ∈ sec, MediaLevel l) → ∀ w ∈ p.sectionWrites host sec first, w.group ≠ .port := by
    intro sec hsec w hw
    obtain ⟨l, hl, hw⟩ := mem_sectionWrites.mp hw
    obtain ⟨w', hw', rfl⟩ := List.mem_map.mp hw
    obtain ⟨l', hl', hw'⟩ := List.mem_flatMap.mp (List.mem_filter.mp hw').1
    rw [List.mem_singleton.mp hl'] at hw'
    exact group_of_section (.inr (hsec l hl)) p w' hw'
  rw [TRTPStreamInfo.unsampled_eq_iff] at h ⊢
  obtain ⟨hsame, hconnection, hformat, hoffset⟩ := h
  refine ⟨?_, ?_, ?_, ?_⟩
  · rw [fixedPart_of_group (hfixed sec hsec), fixedPart_of_group (hfixed sec' hsec'), hsame]
  · exact TRTPStreamInfo.sets_connection.foldl_congr (hgroups .connection) hconnection
  · exact TRTPStreamInfo.sets_format.foldl_congr (hgroups .format) hformat
  · exact TRTPStreamInfo.sets_offset.foldl_congr (hgroups .offset) hoffset

/-! ### Attributes that write -/

theorem hasType_of_attributeName {l n : Text} (h : attributeName l = some n) : HasType 'a' l := by
  unfold attributeName at h
  split at h
  · rename_i val htrim
    exact ⟨val, htrim⟩
  · cases h

theorem hasType_of_bears {g : LegGroup} (hg : g ≠ .connection) {l : Text} (h : bears g l = true) : HasType 'a' l := by
  unfold bears at h
  rw [if_neg hg] at h
  cases hname : attributeName l with
  | none =>
      rw [hname] at h
      cases h
  | some n => exact hasType_of_attributeName hname

theorem length_attributeWrite (payload : UInt8) (name value : Text) :
    (attributeWrite host payload name value).length ≤ 1 := by
  unfold attributeWrite
  split
  · unfold formatWrite
    split
    · split
      · exact le_refl _
      · exact Nat.zero_le _
    · exact Nat.zero_le _
  split
  · exact le_refl _
  split
  · exact Nat.zero_le _
  split
  · unfold timeWrite
    cases stod host.double value with
    | none => exact Nat.zero_le _
    | some time => exact le_refl _
  split
  · unfold clockWrite
    split
    · split
      · exact le_refl _
      · exact Nat.zero_le _
    · exact Nat.zero_le _
  · exact Nat.zero_le _

/-- An attribute writes at most once. -/
theorem sectionWrites_eq_singleton {l : Text} (hl : HasType 'a' l) {w : LegWrite}
    (hw : w ∈ p.sectionWrites host [l] first) : p.sectionWrites host [l] first = [w] := by
  have hlength : (p.sectionWrites host [l] first).length ≤ 1 := by
    obtain ⟨val, htrim⟩ := hl
    have hwrites : (p.writes host l).length ≤ 1 := by
      unfold writes
      rw [htrim]
      dsimp only
      rw [if_pos rfl]
      split
      · rw [List.length_map]
        exact length_attributeWrite _ _ _
      · exact Nat.zero_le _
    unfold sectionWrites writesTo
    rw [List.length_map, List.flatMap_singleton]
    exact (List.length_filter_le _ _).trans hwrites
  match hls : p.sectionWrites host [l] first with
  | [] =>
      rw [hls] at hw
      cases hw
  | [_] =>
      rw [hls] at hw
      rw [List.mem_singleton.mp hw]
  | _ :: _ :: _ =>
      rw [hls] at hlength
      exact absurd hlength (by simp)

/-- Lines that do not bear a group do not write it. -/
theorem group_ne_of_not_bears (hsec : ∀ l ∈ sec, MediaLevel l) {g : LegGroup} (h : ∀ l ∈ sec, bears g l = false) :
    ∀ w ∈ p.sectionWrites host sec first, w.group ≠ g := by
  rintro w hw rfl
  obtain ⟨l, hl, hw⟩ := mem_sectionWrites.mp hw
  exact Bool.eq_false_iff.mp (h l hl) (bears_of_mem (hsec l hl) hw)

/-- **A section writes each group once**, but for connections. -/
theorem write_unique (hsec : ∀ l ∈ sec, MediaLevel l) (hone : OneEachIn sec) {w w' : LegWrite}
    (hw : w ∈ p.sectionWrites host sec first) (hw' : w' ∈ p.sectionWrites host sec first)
    (hgroup : w.group = w'.group) (hg : w.group ≠ .connection) : w = w' := by
  obtain ⟨l, hl, hin⟩ := mem_sectionWrites.mp hw
  obtain ⟨l', hl', hin'⟩ := mem_sectionWrites.mp hw'
  have hbears := bears_of_mem (hsec l hl) hin
  have hbears' := bears_of_mem (hsec l' hl') hin'
  rw [← hgroup] at hbears'
  have hsame : l' = l := by
    obtain ⟨s, s', rfl⟩ := List.append_of_mem hl
    have hothers := not_bears_of_split (length_filter_bears hone hg) hbears
    rcases List.mem_append.mp hl' with hl' | hl'
    · exact absurd hbears' (Bool.eq_false_iff.mp (hothers.1 l' hl'))
    · rcases List.mem_cons.mp hl' with hl' | hl'
      · exact hl'
      · exact absurd hbears' (Bool.eq_false_iff.mp (hothers.2 l' hl'))
  rw [hsame, sectionWrites_eq_singleton (hasType_of_bears hg hbears) hin] at hin'
  exact (List.mem_singleton.mp hin').symm

/-! ### The number of samples -/

theorem rate_keep {ws : List LegWrite} (hws : ∀ w ∈ ws, w.group ≠ .format) (a : TRTPStreamInfo) :
    (a.replay ws).ui32SamplingRate = a.ui32SamplingRate := by
  refine foldl_keep (f := TRTPStreamInfo.ui32SamplingRate) (fun w hw a => ?_) a
  exact congrArg (fun t => t.2.2) (TRTPStreamInfo.sets_format.keep w a (hws w hw))

/-- A rate is the one before or one that is written. -/
theorem rate_replay (ws : List LegWrite) (a : TRTPStreamInfo) : (a.replay ws).ui32SamplingRate = a.ui32SamplingRate ∨
    ∃ codec word, .format codec word (a.replay ws).ui32SamplingRate ∈ ws := by
  induction ws generalizing a with
  | nil => exact .inl rfl
  | cons w ws ih =>
      rcases ih (w.apply a) with h | ⟨codec, word, h⟩
      · cases w with
        | format codec word rate =>
            refine .inr ⟨codec, word, ?_⟩
            rw [show (a.replay (.format codec word rate :: ws)).ui32SamplingRate = rate from h]
            exact List.mem_cons_self
        | opened port payload => exact .inl h
        | connection destIP ttl => exact .inl h
        | offset n => exact .inl h
        | packetTime time => exact .inl h
      · exact .inr ⟨codec, word, List.mem_cons_of_mem _ h⟩

/-- A packet time is counted at the rate before its section or at one that the section gives. -/
theorem samples_section (hsec : ∀ l ∈ sec, MediaLevel l) (hone : OneEachIn sec) {time : UInt32 → UInt32}
    (htime : .packetTime time ∈ p.sectionWrites host sec first) (a : TRTPStreamInfo) :
    ∃ rate : UInt32, (a.replay (p.sectionWrites host sec first)).ui32MaxSamplesPerPacket = time rate ∧
      (rate = a.ui32SamplingRate ∨ ∃ codec word, .format codec word rate ∈ p.sectionWrites host sec first) := by
  obtain ⟨before, w, after, hws, hgroup, hafter⟩ :=
    exists_last (p := fun w : LegWrite => w.group = .samples) ⟨_, htime, rfl⟩
  have hmem : w ∈ p.sectionWrites host sec first := by
    rw [hws]
    exact List.mem_append_right _ List.mem_cons_self
  obtain rfl := write_unique hsec hone hmem htime hgroup (by rw [hgroup]; exact LegGroup.noConfusion)
  refine ⟨(a.replay before).ui32SamplingRate, ?_, ?_⟩
  · rw [hws]
    exact TRTPStreamInfo.samples_replay hafter a
  · refine (rate_replay before a).imp_right ?_
    rintro ⟨codec, word, h⟩
    refine ⟨codec, word, ?_⟩
    rw [hws]
    exact List.mem_append_left _ h

/-- Two orders of a section leave the same number of samples where the rates do not matter. -/
theorem samples_eq (hsec : ∀ l ∈ sec, MediaLevel l) (hone : OneEachIn sec) (hperm : Permuted sec sec')
    {a b : TRTPStreamInfo} (h : a.unsampled = b.unsampled)
    (hrates : ∀ codec word rate time, .format codec word rate ∈ p.sectionWrites host sec first →
      .packetTime time ∈ p.sectionWrites host sec first →
      time a.ui32SamplingRate = time rate)
    (hstart : a.ui32MaxSamplesPerPacket = b.ui32MaxSamplesPerPacket ∨
      ∃ w ∈ p.sectionWrites host sec first, w.group = .samples) :
    (a.replay (p.sectionWrites host sec first)).ui32MaxSamplesPerPacket =
      (b.replay (p.sectionWrites host sec' first)).ui32MaxSamplesPerPacket := by
  have hsec' : ∀ l ∈ sec', MediaLevel l := fun l hl => hsec l (hperm.1.mem_iff.mpr hl)
  have hmem : ∀ w, w ∈ p.sectionWrites host sec' first ↔ w ∈ p.sectionWrites host sec first := by
    intro w
    rw [mem_sectionWrites, mem_sectionWrites]
    simp only [hperm.1.mem_iff]
  have hrate : a.ui32SamplingRate = b.ui32SamplingRate := TRTPStreamInfo.rate_of_unsampled h
  by_cases htimed : ∃ w ∈ p.sectionWrites host sec first, w.group = .samples
  · obtain ⟨w, hw, hgroup⟩ := htimed
    cases w with
    | packetTime time =>
        -- whichever rate it is
        have hsame : ∀ rate : UInt32, (rate = a.ui32SamplingRate ∨
            ∃ codec word, .format codec word rate ∈ p.sectionWrites host sec first) →
            time rate = time a.ui32SamplingRate := by
          rintro rate (rfl | ⟨codec, word, hformat⟩)
          · rfl
          · exact (hrates codec word rate time hformat hw).symm
        obtain ⟨rate, hsamples, hfrom⟩ := samples_section hsec hone hw a
        obtain ⟨rate', hsamples', hfrom'⟩ := samples_section hsec' (hone.perm hperm.1) ((hmem _).mpr hw) b
        rw [hsamples, hsamples', hsame rate hfrom, hsame rate' ?_]
        rw [hrate]
        exact hfrom'.imp_right fun ⟨codec, word, hformat⟩ => ⟨codec, word, (hmem _).mp hformat⟩
    | opened port payload => cases hgroup
    | connection destIP ttl => cases hgroup
    | format codec word rate => cases hgroup
    | offset n => cases hgroup
  · have hnone : ∀ w ∈ p.sectionWrites host sec first, w.group ≠ .samples := fun w hw hgroup => htimed ⟨w, hw, hgroup⟩
    rw [TRTPStreamInfo.samples_keep hnone, TRTPStreamInfo.samples_keep fun w hw => hnone w ((hmem w).mp hw)]
    exact hstart.resolve_right htimed

section Orders
variable {s₁ s₂ s₃ : List Text} {lf lt codec : Text} {word : UInt8} {rate : UInt32} {time : UInt32 → UInt32}
  (hformat : .format codec word rate ∈ p.sectionWrites host [lf] first)
  (htime : .packetTime time ∈ p.sectionWrites host [lt] first)
include hformat htime

/-- The rate comes first. -/
theorem samples_of_format_first (hsec : ∀ l ∈ s₁ ++ lf :: (s₂ ++ lt :: s₃), MediaLevel l)
    (hone : OneEachIn (s₁ ++ lf :: (s₂ ++ lt :: s₃))) (a : TRTPStreamInfo) :
    (a.replay (p.sectionWrites host (s₁ ++ lf :: (s₂ ++ lt :: s₃)) first)).ui32MaxSamplesPerPacket =
      time rate := by
  have hlf := hsec lf (List.mem_append_right _ List.mem_cons_self)
  have hlt := hsec lt (List.mem_append_right _ (List.mem_cons_of_mem _ (List.mem_append_right _ List.mem_cons_self)))
  have hbf := bears_of_mem hlf hformat
  have hbt := bears_of_mem hlt htime
  have hwrites : p.sectionWrites host (s₁ ++ lf :: (s₂ ++ lt :: s₃)) first =
      (p.sectionWrites host s₁ first ++ .format codec word rate :: p.sectionWrites host s₂ first) ++
        .packetTime time :: p.sectionWrites host s₃ first := by
    rw [sectionWrites_append, sectionWrites_cons lf, sectionWrites_append, sectionWrites_cons lt,
      sectionWrites_eq_singleton (hasType_of_bears LegGroup.noConfusion hbf) hformat,
      sectionWrites_eq_singleton (hasType_of_bears LegGroup.noConfusion hbt) htime]
    simp only [List.append_assoc, List.cons_append, List.nil_append]
  -- no other rate between them, and no other packet time after them
  have hbetween : ∀ w ∈ p.sectionWrites host s₂ first, w.group ≠ .format := by
    have hnone := (not_bears_of_split (length_filter_bears hone LegGroup.noConfusion) hbf).2
    refine group_ne_of_not_bears (fun l hl => hsec l ?_) fun l hl => hnone l (List.mem_append_left _ hl)
    exact List.mem_append_right _ (List.mem_cons_of_mem _ (List.mem_append_left _ hl))
  have hafter : ∀ w ∈ p.sectionWrites host s₃ first, w.group ≠ .samples := by
    have hsplit : s₁ ++ lf :: (s₂ ++ lt :: s₃) = (s₁ ++ lf :: s₂) ++ lt :: s₃ := by
      rw [List.append_assoc, List.cons_append]
    rw [hsplit] at hone
    have hnone := (not_bears_of_split (length_filter_bears hone LegGroup.noConfusion) hbt).2
    refine group_ne_of_not_bears (fun l hl => hsec l ?_) hnone
    rw [hsplit]
    exact List.mem_append_right _ (List.mem_cons_of_mem _ hl)
  rw [hwrites, TRTPStreamInfo.samples_replay hafter]
  congr 2
  rw [TRTPStreamInfo.replay, List.foldl_append, List.foldl_cons]
  exact rate_keep hbetween _

/-- The packet time comes first. -/
theorem samples_of_time_first (hsec : ∀ l ∈ s₁ ++ lt :: (s₂ ++ lf :: s₃), MediaLevel l)
    (hone : OneEachIn (s₁ ++ lt :: (s₂ ++ lf :: s₃))) (a : TRTPStreamInfo) :
    (a.replay (p.sectionWrites host (s₁ ++ lt :: (s₂ ++ lf :: s₃)) first)).ui32MaxSamplesPerPacket =
      time a.ui32SamplingRate := by
  have hlt := hsec lt (List.mem_append_right _ List.mem_cons_self)
  have hlf := hsec lf (List.mem_append_right _ (List.mem_cons_of_mem _ (List.mem_append_right _ List.mem_cons_self)))
  have hbf := bears_of_mem hlf hformat
  have hbt := bears_of_mem hlt htime
  have hwrites : p.sectionWrites host (s₁ ++ lt :: (s₂ ++ lf :: s₃)) first =
      p.sectionWrites host s₁ first ++ .packetTime time :: p.sectionWrites host (s₂ ++ lf :: s₃) first := by
    rw [sectionWrites_append, sectionWrites_cons lt,
      sectionWrites_eq_singleton (hasType_of_bears LegGroup.noConfusion hbt) htime, List.singleton_append]
  -- no rate before it, and no other packet time after it
  have hbefore : ∀ w ∈ p.sectionWrites host s₁ first, w.group ≠ .format := by
    have hsplit : s₁ ++ lt :: (s₂ ++ lf :: s₃) = (s₁ ++ lt :: s₂) ++ lf :: s₃ := by
      rw [List.append_assoc, List.cons_append]
    rw [hsplit] at hone
    have hnone := (not_bears_of_split (length_filter_bears hone LegGroup.noConfusion) hbf).1
    exact group_ne_of_not_bears (fun l hl => hsec l (List.mem_append_left _ hl)) fun l hl => hnone l (List.mem_append_left _ hl)
  have hafter : ∀ w ∈ p.sectionWrites host (s₂ ++ lf :: s₃) first, w.group ≠ .samples := by
    have hnone := (not_bears_of_split (length_filter_bears hone LegGroup.noConfusion) hbt).2
    exact group_ne_of_not_bears (fun l hl => hsec l (List.mem_append_right _ (List.mem_cons_of_mem _ hl))) hnone
  rw [hwrites, TRTPStreamInfo.samples_replay hafter, rate_keep hbefore]

end Orders

end SdpParser
end Aes67Daemon
