import Aes67Daemon.Session.Origin

/-!
# What a session description says about connections

An `Outline` is the parser without the formats: how far it is, whether a `DUP`
group was announced, and the ports and the destinations.  Its lines never fail.
`outline_lines` says that the parser, as far as it accepts, refines it.

## Main definitions

* `Outline`, `Outline.line`, `Outline.lines` — reading the outline.
* `outline_lines` — the parser reads the outline.
* `appliedConnection` — the destination a section ends up with.
-/
namespace Aes67Daemon

open Text

namespace Legs
variable {α β : Type}

/-- Change both legs. -/
def map (f : α → β) (l : Legs α) : Legs β := ⟨f l.leg0, f l.leg1⟩

theorem at?_map (f : α → β) (l : Legs α) (i : ℤ) : (l.map f).at? i = (l.at? i).map f := by
  simp only [at?, map]
  split
  · rfl
  · split <;> rfl

theorem map_set (f : α → β) (l : Legs α) (i : ℤ) (a : α) :
    (l.set i a).map f = (l.map f).set i (f a) := by
  simp only [set, map]
  split <;> rfl

theorem set_of_at? {l : Legs α} {i : ℤ} {a : α} (h : l.at? i = some a) : l.set i a = l := by
  simp only [at?] at h
  split at h
  · cases h; simp [set, *]
  · split at h
    · cases h; simp [set, *]
    · cases h

/-- A change that succeeds is one of a leg that exists. -/
theorem modify?_eq_some {l l' : Legs α} {i : ℤ} {f : α → α} (h : l.modify? i f = some l') :
    ∃ a, l.at? i = some a ∧ l' = l.set i (f a) := by
  simp only [modify?, at?, set] at h ⊢
  split at h
  · cases h; exact ⟨_, if_pos ‹_›, by rw [if_pos ‹_›]⟩
  · split at h
    · cases h; exact ⟨_, by rw [if_neg ‹_›, if_pos ‹_›], by rw [if_neg ‹_›]⟩
    · cases h

end Legs

/-- How far a parser is, and the ports and destinations it has read. -/
structure Outline where
  status : SdpStatus
  mid : ℤ
  dup : Bool
  port : Legs UInt16
  dest : Legs UInt32

/-- The outline of a parser. -/
def SdpParser.outline (p : SdpParser) : Outline :=
  { status := p.status
    mid := p.mid
    dup := p.dup
    port := p.info.stream.map TRTPStreamInfo.usDestPort
    dest := p.info.stream.map TRTPStreamInfo.ui32DestIP }

/-- The address in the value of a `c=` line. -/
def connectionAddress (val : Text) : Option UInt32 :=
  match splitBy (fun c => c = ' ' || c = '/') val with
  | _ :: _ :: f2 :: _ => Address.ofText f2
  | _ => none

namespace Outline

/-- Only audio opens a section, and only the first two have a port. -/
def mediaLine (o : Outline) (val : Text) : Outline :=
  match splitBy (· = ' ') val with
  | f0 :: f1 :: _ =>
    if f0 = "audio".toList then
      if o.mid + 1 < SdpParser.mediaMax then
        { o with
          status := .media
          mid := o.mid + 1
          port := o.port.set (o.mid + 1) (UInt16.ofInt ((stoi f1).getD 0)) }
      else { o with mid := o.mid + 1 }
    else o
  | _ => o

/-- A connection of the session is one of both sections. -/
def connectionLine (o : Outline) (val : Text) : Outline :=
  match connectionAddress val with
  | none => o
  | some a =>
    match o.status with
    | .init => { o with dest := ⟨a, a⟩ }
    | .time => o
    | .media => { o with dest := o.dest.set o.mid a }

/-- A line, by its type. -/
def typed (o : Outline) (c : Char) (val : Text) : Outline :=
  if c = 't' then { o with status := .time }
  else if c = 'a' then
    if o.status ≠ .media ∧ "group:DUP".toList <+: val then { o with dup := true } else o
  else if c = 'm' then o.mediaLine val
  else if c = 'c' then o.connectionLine val
  else o

/-- One line. -/
def line (o : Outline) (l : Text) : Outline :=
  match trim l with
  | c :: '=' :: val => o.typed c val
  | _ => o

/-- The lines up to the third audio section. -/
def lines : Outline → List Text → Outline
  | o, [] => o
  | o, l :: ls => if o.mid < SdpParser.mediaMax then (o.line l).lines ls else o

end Outline

/-! ## The parser reads the outline -/

namespace SdpParser
variable {host : Host} {ptp : Ptp} {p p' : SdpParser}

theorem outline_modifyStream {f : TRTPStreamInfo → TRTPStreamInfo} (h : p.modifyStream f = .ok p') :
    ∃ s, p.info.stream.at? p.mid = some s ∧ p'.outline =
      { p.outline with
        port := p.outline.port.set p.mid (f s).usDestPort
        dest := p.outline.dest.set p.mid (f s).ui32DestIP } := by
  obtain ⟨stream, hstream, rfl⟩ := modifyStream_eq_ok.mp h
  obtain ⟨s, hs, rfl⟩ := Legs.modify?_eq_some hstream
  exact ⟨s, hs, by simp only [outline, Legs.map_set]⟩

theorem port_at? {s : TRTPStreamInfo} (h : p.info.stream.at? p.mid = some s) :
    p.outline.port.set p.mid s.usDestPort = p.outline.port :=
  Legs.set_of_at? (by rw [outline, Legs.at?_map, h]; rfl)

theorem dest_at? {s : TRTPStreamInfo} (h : p.info.stream.at? p.mid = some s) :
    p.outline.dest.set p.mid s.ui32DestIP = p.outline.dest :=
  Legs.set_of_at? (by rw [outline, Legs.at?_map, h]; rfl)

theorem Written.outline_eq (h : p.Written p') : p'.outline = p.outline := by
  cases h with
  | same => rfl
  | write hf h =>
      obtain ⟨s, hs, ho⟩ := outline_modifyStream h
      obtain ⟨_, _, _, _, _, hfs⟩ := hf s
      rw [ho, hfs]
      simp only [port_at? hs, dest_at? hs]

theorem Attributed.outline_eq {val : Text} (h : p.Attributed val p') :
    p'.outline = if p.status ≠ .media ∧ "group:DUP".toList <+: val
      then { p.outline with dup := true } else p.outline := by
  cases h with
  | dup hp hval => rw [if_pos ⟨hp, hval⟩]; rfl
  | noDup hp hval => rw [if_neg fun h => hval h.2]
  | written hp h => rw [if_neg fun h => h.1 hp, h.outline_eq]

theorem outline_mediaLine {val : Text} (h : p.mediaLine val = .ok p') :
    p'.outline = p.outline.mediaLine val := by
  obtain ⟨f0, f1, f2, f3, fs, hval, ⟨hf0, rfl⟩ | ⟨hf0, h⟩⟩ := mediaLine_eq_ok h
  · simp only [Outline.mediaLine, hval, hf0, if_false]
  · simp only [Outline.mediaLine, hval, hf0, if_true]
    rcases openSection_eq_ok h with ⟨hmid, rfl⟩ | ⟨port, payload, q, hport, -, hq, rfl⟩
    · exact (if_neg (not_lt.mpr hmid)).symm
    · obtain ⟨s, hs, ho⟩ := outline_modifyStream hq
      rw [if_pos (show p.outline.mid + 1 < mediaMax from lt_mediaMax_of_at? hs), hport]
      have hdest := dest_at? hs
      have hq' : { q with status := .media : SdpParser }.outline = { q.outline with status := .media } := rfl
      rw [hq', ho]
      simp only [hdest]
      rfl

theorem outline_connectionLine {val : Text} (h : p.connectionLine val = .ok p') :
    p'.outline = p.outline.connectionLine val := by
  rcases connectionLine_eq_ok h with ⟨hp, rfl⟩ | ⟨hp, f2, fs, a, ttl, hval, ha, -, -, h⟩
  · have hstatus : p'.outline.status = .time := hp
    rw [Outline.connectionLine]
    split
    · rfl
    · rw [hstatus]
  · have haddr : connectionAddress val = some a := by rw [connectionAddress, hval, ← ha]
    rw [Outline.connectionLine, haddr]
    simp only [setConnection] at h
    split at h
    · rename_i hinit
      rw [← Parsed.pure_eq_ok.mp h]
      simp only [outline, hinit, Legs.map]
    · rename_i hinit
      have hstatus : p.outline.status = .media := by
        show p.status = .media
        cases hs : p.status
        · exact absurd hs hinit
        · exact absurd hs hp
        · rfl
      obtain ⟨s, hs, ho⟩ := outline_modifyStream h
      rw [ho]
      simp only [port_at? hs, hstatus]
      rfl

/-- **One line.** -/
theorem outline_line {l : Text} (h : p.line host ptp l = .ok p') :
    p'.outline = p.outline.line l := by
  obtain ⟨c, val, htrim, hline⟩ := line_eq_ok h
  rw [Outline.line, htrim]
  show _ = p.outline.typed c val
  cases hline with
  | ignored hc =>
      simp only [List.mem_cons, List.not_mem_nil, or_false, not_or] at hc
      simp only [Outline.typed, hc, if_false]
  | origin hc h =>
      obtain ⟨_, rfl⟩ := originLine_eq_ok h
      rw [hc]
      rfl
  | time hc => rw [hc]; rfl
  | attr hc h => rw [hc]; exact (attributed_attributeLine h).outline_eq
  | media hc h => rw [hc]; exact outline_mediaLine h
  | connection hc h => rw [hc]; exact outline_connectionLine h

/-- **The parser reads the outline of every text it accepts.** -/
theorem outline_lines {ls : List Text} (h : p.lines host ptp ls = .ok p') :
    p'.outline = p.outline.lines ls := by
  induction ls generalizing p with
  | nil => rw [← Parsed.pure_eq_ok.mp h]; rfl
  | cons l ls ih =>
      rw [lines] at h
      rw [Outline.lines]
      split at h
      · rename_i hmid
        obtain ⟨q, hq, h⟩ := Parsed.bind_eq_ok.mp h
        rw [if_pos (show p.outline.mid < mediaMax from hmid), ← outline_line hq, ih h]
      · rename_i hmid
        rw [if_neg (show ¬ p.outline.mid < mediaMax from hmid), ← Parsed.pure_eq_ok.mp h]

end SdpParser

/-! ## Lines that open no audio section -/

/-- The marker of an audio section. -/
def audioMark : Text := "m=audio ".toList

/-- Whether a line, trimmed, opens an audio section. -/
def opensAudio (l : Text) : Bool := audioMark.isPrefixOf (trim l)

/-- The address of a line, if it is a `c=` line that has one. -/
def connLine (l : Text) : Option UInt32 :=
  match trim l with
  | 'c' :: '=' :: val => connectionAddress val
  | _ => none

/-- Whether a line, trimmed, announces a `DUP` group. -/
def DupLine (l : Text) : Prop := "a=group:DUP".toList <+: trim l

instance (l : Text) : Decidable (DupLine l) :=
  decidable_of_iff ("a=group:DUP".toList.isPrefixOf (trim l) = true) List.isPrefixOf_iff_prefix

/-- The destination after lines that start with `d`: the last `c=` line before a `t=` line. -/
def appliedConnection (d : UInt32) : List Text → UInt32
  | [] => d
  | l :: ls => if HasType 't' l then d else appliedConnection ((connLine l).getD d) ls

/-- Whether a `DUP` group is announced; `session` tells whether session attributes are
read, as they are again after a `t=` line. -/
def announcesDup (session : Bool) : List Text → Bool
  | [] => false
  | l :: ls => (session && DupLine l) || announcesDup (session || HasType 't' l) ls

namespace Outline
variable {o : Outline}

theorem mediaLine_of_noAudio {l val : Text} (htrim : trim l = 'm' :: '=' :: val)
    (hl : ¬ opensAudio l = true) : o.mediaLine val = o := by
  rw [mediaLine]
  split
  · rename_i f0 f1 fs hval
    refine if_neg fun hf0 => hl ?_
    obtain ⟨u, hu, -, -⟩ := splitBy_eq_cons_cons hval
    exact List.isPrefixOf_iff_prefix.mpr ⟨u, by rw [htrim, hu, hf0]; rfl⟩
  · rfl

/-- What a line does that opens no audio section. -/
theorem line_of_noAudio {l : Text} (hl : ¬ opensAudio l = true) : o.line l =
    { o with
      status := if HasType 't' l then .time else o.status
      dup := o.dup || (o.status ≠ .media ∧ DupLine l)
      dest :=
        match connLine l, o.status with
        | some a, .init => ⟨a, a⟩
        | some a, .media => o.dest.set o.mid a
        | _, _ => o.dest } := by
  have hskip : (∀ c val, trim l ≠ c :: '=' :: val) → ¬ HasType 't' l ∧ ¬ DupLine l ∧ connLine l = none := by
    intro h
    refine ⟨fun ⟨val, hval⟩ => h _ _ hval, fun ⟨t, ht⟩ => h _ _ ht.symm, ?_⟩
    rw [connLine]
    split
    · exact absurd ‹_› (h _ _)
    · rfl
  rw [line]
  split
  · rename_i c val htrim
    have htype : HasType 't' l ↔ c = 't' := by simp [HasType, htrim]
    have hdup : DupLine l ↔ c = 'a' ∧ "group:DUP".toList <+: val := by
      rw [DupLine, htrim, show "a=group:DUP".toList = 'a' :: '=' :: "group:DUP".toList by decide,
        List.cons_prefix_cons, List.cons_prefix_cons]
      simp [eq_comm]
    have hconn : connLine l = if c = 'c' then connectionAddress val else none := by
      rw [connLine, htrim]
      by_cases hc : c = 'c'
      · subst hc
        rfl
      · rw [if_neg hc]
        split
        · rename_i heq
          cases heq
          exact absurd rfl hc
        · rfl
    obtain ⟨dup, hgroup⟩ : ∃ dup : Bool, "group:DUP".toList <+: val ↔ dup = true :=
      ⟨decide _, decide_eq_true_iff.symm⟩
    have hm : trim l = 'm' :: '=' :: val → ¬ opensAudio l = true → o.mediaLine val = o :=
      mediaLine_of_noAudio
    simp only [htype, hdup, hconn, typed, hgroup]
    by_cases ht : c = 't'
    · subst ht
      simp
    by_cases ha : c = 'a'
    · subst ha
      by_cases hd : o.status ≠ .media ∧ dup = true <;> simp [hd]
    by_cases hmedia : c = 'm'
    · subst hmedia
      simp [hm htrim hl]
    by_cases hc : c = 'c'
    · subst hc
      obtain ⟨status, mid, d, port, dest⟩ := o
      simp only [connectionLine]
      cases connectionAddress val <;> cases status <;> simp
    · simp [ht, ha, hmedia, hc]
  · rename_i h
    obtain ⟨h1, h2, h3⟩ := hskip h
    simp [h1, h2, h3]

/-! ## Lines between audio sections -/

theorem connLine_of_time {l : Text} (h : HasType 't' l) : connLine l = none := by
  obtain ⟨val, hval⟩ := h
  rw [connLine, hval]
  rfl

variable {ls : List Text} (hls : ∀ l ∈ ls, ¬ opensAudio l = true)
  (hmid : o.mid < SdpParser.mediaMax)

include hls hmid in
/-- After a `t=` line connections are ignored. -/
theorem lines_time (ho : o.status = .time) :
    o.lines ls = { o with dup := o.dup || announcesDup true ls } := by
  induction ls generalizing o with
  | nil => simp [lines, announcesDup]
  | cons l ls ih =>
      have hl := hls l List.mem_cons_self
      have hstep : o.line l = { o with dup := o.dup || DupLine l } := by
        rw [line_of_noAudio hl, ho]
        cases connLine l <;> simp
      rw [lines, if_pos hmid, hstep, ih (o := { o with dup := o.dup || DupLine l })
        (fun l' hl' => hls l' (List.mem_cons_of_mem _ hl')) hmid ho]
      simp [announcesDup, Bool.or_assoc]

include hls hmid in
/-- The first part of the session describes both legs. -/
theorem lines_init {d : UInt32} (ho : o.status = .init) (hd : o.dest = ⟨d, d⟩) :
    ∃ status, status ≠ .media ∧ o.lines ls =
      { o with
        status := status
        dup := o.dup || announcesDup true ls
        dest := ⟨appliedConnection d ls, appliedConnection d ls⟩ } := by
  induction ls generalizing o d with
  | nil => exact ⟨.init, by decide, by simp [lines, announcesDup, appliedConnection, ← ho, ← hd]⟩
  | cons l ls ih =>
      have hl := hls l List.mem_cons_self
      have hls' : ∀ l' ∈ ls, ¬ opensAudio l' = true := fun l' hl' => hls l' (List.mem_cons_of_mem _ hl')
      rw [lines, if_pos hmid, appliedConnection, announcesDup, Bool.true_or]
      by_cases ht : HasType 't' l
      · have hstep : o.line l = { o with status := .time, dup := o.dup || DupLine l } := by
          rw [line_of_noAudio hl, ho, connLine_of_time ht]
          simp [ht]
        rw [hstep, lines_time (o := { o with status := .time, dup := o.dup || DupLine l }) hls' hmid rfl]
        exact ⟨.time, by decide, by simp [ht, hd, Bool.or_assoc]⟩
      · have hstep : o.line l = { o with
            dup := o.dup || DupLine l
            dest := ⟨(connLine l).getD d, (connLine l).getD d⟩ } := by
          rw [line_of_noAudio hl, ho]
          cases connLine l <;> simp [ht, hd]
        obtain ⟨status, hstatus, hlines⟩ := ih (o := { o with
          dup := o.dup || DupLine l
          dest := ⟨(connLine l).getD d, (connLine l).getD d⟩ }) hls' hmid ho rfl
        exact ⟨status, hstatus, by rw [hstep, hlines]; simp [ht, Bool.or_assoc]⟩

include hls hmid in
/-- An audio section describes its leg. -/
theorem lines_media {d : UInt32} (ho : o.status = .media) (hd : o.dest.at? o.mid = some d) :
    ∃ status, o.lines ls =
      { o with
        status := status
        dup := o.dup || announcesDup false ls
        dest := o.dest.set o.mid (appliedConnection d ls) } := by
  induction ls generalizing o d with
  | nil =>
      exact ⟨.media, by simp [lines, announcesDup, appliedConnection, ← ho, Legs.set_of_at? hd]⟩
  | cons l ls ih =>
      have hl := hls l List.mem_cons_self
      have hls' : ∀ l' ∈ ls, ¬ opensAudio l' = true := fun l' hl' => hls l' (List.mem_cons_of_mem _ hl')
      rw [lines, if_pos hmid, appliedConnection, announcesDup, Bool.false_and, Bool.false_or]
      by_cases ht : HasType 't' l
      · have hstep : o.line l = { o with status := .time } := by
          rw [line_of_noAudio hl, ho, connLine_of_time ht]
          simp [ht]
        rw [hstep, lines_time (o := { o with status := .time }) hls' hmid rfl]
        exact ⟨.time, by simp [ht, Legs.set_of_at? hd]⟩
      · have hstep : o.line l = { o with dest := o.dest.set o.mid ((connLine l).getD d) } := by
          rw [line_of_noAudio hl, ho]
          cases connLine l <;> simp [ht, Legs.set_of_at? hd]
        obtain ⟨status, hlines⟩ := ih
          (o := { o with dest := o.dest.set o.mid ((connLine l).getD d) }) hls' hmid ho
          (Legs.at?_set hd)
        exact ⟨status, by rw [hstep, hlines]; simp [ht]⟩

end Outline

end Aes67Daemon
