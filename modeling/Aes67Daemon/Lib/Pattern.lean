import Mathlib.Data.List.Basic

/-!
# Patterns of paths

A pattern is a sequence of pieces, each for one class of characters: one character,
an optional one, any number of them, or a captured group of at least one.  A match
is searched for as a backtracking matcher does, the longer way first.

Whether two patterns have a text in common is decided on the pieces alone, by
taking the first characters of both together, and of many patterns by taking the
first characters of all of them as long as they can be sorted by these.

## Main definitions

* `CharClass`, `Piece` — the parts of a pattern.
* `regexMatch` — the text of the group, when the whole text matches.
* `steps`, `regexMatch_cons_iff` — what can be matched after the first character.
* `meet`, `apart_of_meet` — two patterns without a common text.
* `allApart`, `pairwise_of_allApart` — many patterns, no two with a common text.
* `Delimited`, `regexMatch_delimited` — a group that ends where the text says.
* `spell`, `part_spell` — the text of a pattern with a given group.
-/
namespace Aes67Daemon.Pattern

/-- A class of characters. -/
inductive CharClass
  | lit (c : Char)
  /-- `.`, which stands for no line terminator. -/
  | dot
  /-- `[^c]`. -/
  | except (c : Char)
  deriving DecidableEq

namespace CharClass

def has : CharClass → Char → Bool
  | lit a, c => a == c
  | dot, c => c != '\n' && c != '\r'
  | except a, c => a != c

/-- Whether two classes may have a character in common. -/
def meets : CharClass → CharClass → Bool
  | lit a, k => k.has a
  | k, lit a => k.has a
  | _, _ => true

theorem meets_of_has {k l : CharClass} {c : Char} (hk : k.has c = true) (hl : l.has c = true) :
    k.meets l = true := by
  cases k with
  | lit a =>
      obtain rfl : a = c := by simpa [has] using hk
      exact hl
  | dot | except a =>
      cases l with
      | lit b =>
          obtain rfl : b = c := by simpa [has] using hl
          exact hk
      | dot | except b => rfl

end CharClass

/-- A piece of a pattern. -/
inductive Piece
  | one (k : CharClass)
  | opt (k : CharClass)
  | star (k : CharClass)
  /-- A captured group of at least one character. -/
  | group (k : CharClass)
  deriving DecidableEq

section matching

/-- Any number of characters, and then the rest. -/
def starMatch (k : CharClass) (next : List Char → Option (List Char)) : List Char → Option (List Char)
  | [] => next []
  | c :: s => (if k.has c then starMatch k next s else none).or (next (c :: s))

/-- Any number of characters, which are captured, and then the rest. -/
def groupMatch (k : CharClass) (next : List Char → Option (List Char)) : List Char → Option (List Char)
  | [] => (next []).map fun _ => []
  | c :: s => (if k.has c then (groupMatch k next s).map (c :: ·) else none).or
      ((next (c :: s)).map fun _ => [])

/-- The text of the group, when the whole text matches.  A pattern without a group
has the empty one. -/
def regexMatch : List Piece → List Char → Option (List Char)
  | [], s => if s = [] then some [] else none
  | .one k :: p, s =>
    match s with
    | [] => none
    | c :: s => if k.has c then regexMatch p s else none
  | .opt k :: p, s =>
    (match s with
      | [] => none
      | c :: s => if k.has c then regexMatch p s else none).or (regexMatch p s)
  | .star k :: p, s => starMatch k (regexMatch p) s
  | .group k :: p, s =>
    match s with
    | [] => none
    | c :: s => if k.has c then (groupMatch k (regexMatch p) s).map (c :: ·) else none

variable {k : CharClass} {next : List Char → Option (List Char)} {p q : List Piece} {s : List Char}

theorem isSome_groupMatch (k : CharClass) (next : List Char → Option (List Char)) (s : List Char) :
    (groupMatch k next s).isSome = (starMatch k next s).isSome := by
  induction s with
  | nil => simp [groupMatch, starMatch]
  | cons c s ih =>
      simp only [groupMatch, starMatch, Option.isSome_or, Option.isSome_map]
      split <;> simp [ih]

/-! ## One character at a time -/

/-- Whether the empty text matches. -/
def nullable : List Piece → Bool
  | [] => true
  | .opt _ :: p | .star _ :: p => nullable p
  | .one _ :: _ | .group _ :: _ => false

/-- The classes of the first character, each with what is left to match: `none` when
that is the pattern again. -/
def steps : List Piece → List (CharClass × Option (List Piece))
  | [] => []
  | .one k :: p => [(k, some p)]
  | .opt k :: p => (k, some p) :: after p (steps p)
  | .star k :: p => (k, none) :: after p (steps p)
  | .group k :: p => [(k, some (.star k :: p))]
where
  /-- The steps of the rest of a pattern, seen from the whole. -/
  after (p : List Piece) (ps : List (CharClass × Option (List Piece))) :
      List (CharClass × Option (List Piece)) :=
    ps.map fun e => (e.1, some (e.2.getD p))

theorem regexMatch_nil_iff : (regexMatch p []).isSome = nullable p := by
  induction p with
  | nil => rfl
  | cons x p ih => cases x <;> simp [regexMatch, starMatch, nullable, ih]

private theorem exists_after {t : List Piece → Prop} {r : List (CharClass × Option (List Piece))}
    {P : CharClass → Prop} :
    (∃ e ∈ steps.after p r, P e.1 ∧ t (e.2.getD q)) ↔ ∃ e ∈ r, P e.1 ∧ t (e.2.getD p) := by
  simp [steps.after]

/-- **What follows the first character.** -/
theorem regexMatch_cons_iff (c : Char) (s : List Char) :
    (regexMatch p (c :: s)).isSome = true ↔
      ∃ e ∈ steps p, e.1.has c = true ∧ (regexMatch (e.2.getD p) s).isSome = true := by
  induction p with
  | nil => simp [regexMatch, steps]
  | cons x p ih =>
      cases x with
      | one k => by_cases hc : k.has c = true <;> simp [regexMatch, steps, hc]
      | opt k =>
          simp only [regexMatch, steps, Option.isSome_or, Bool.or_eq_true, ih, List.exists_mem_cons_iff,
            exists_after (P := fun k => k.has c = true)
              (t := fun p => (regexMatch p s).isSome = true), Option.getD_some]
          by_cases hc : k.has c = true <;> simp [hc]
      | star k =>
          simp only [regexMatch, starMatch, steps, Option.isSome_or, Bool.or_eq_true, ih,
            List.exists_mem_cons_iff, exists_after (P := fun k => k.has c = true)
              (t := fun p => (regexMatch p s).isSome = true), Option.getD_none]
          by_cases hc : k.has c = true <;> simp [hc]
      | group k =>
          by_cases hc : k.has c = true <;> simp [regexMatch, steps, hc, isSome_groupMatch]

/-! ## Common texts -/

/-- Whether two patterns may have a common text.  A step that leaves both patterns as
they are is not followed, as what is common after it is common before. -/
def meet : ℕ → List Piece → List Piece → Bool
  | 0, _, _ => true
  | fuel + 1, p, q =>
    (nullable p && nullable q) ||
      (steps p).any fun e => (steps q).any fun f =>
        e.1.meets f.1 && (e.2.isSome || f.2.isSome) && meet fuel (e.2.getD p) (f.2.getD q)

/-- **A common text is found.** -/
theorem meet_of_common (fuel : ℕ) (hp : (regexMatch p s).isSome = true)
    (hq : (regexMatch q s).isSome = true) : meet fuel p q = true := by
  induction s generalizing p q fuel with
  | nil =>
      cases fuel with
      | zero => rfl
      | succ fuel =>
          rw [regexMatch_nil_iff] at hp hq
          simp [meet, hp, hq]
  | cons c s ih =>
      cases fuel with
      | zero => rfl
      | succ fuel =>
          obtain ⟨e, he, hce, hp'⟩ := (regexMatch_cons_iff c s).mp hp
          obtain ⟨f, hf, hcf, hq'⟩ := (regexMatch_cons_iff c s).mp hq
          by_cases hgo : (e.2.isSome || f.2.isSome) = true
          · have hany : (steps p).any (fun e => (steps q).any fun f =>
                e.1.meets f.1 && (e.2.isSome || f.2.isSome) && meet fuel (e.2.getD p) (f.2.getD q)) =
                  true :=
              List.any_eq_true.mpr ⟨e, he, List.any_eq_true.mpr ⟨f, hf, by
                simp [CharClass.meets_of_has hce hcf, hgo, ih fuel hp' hq']⟩⟩
            simp [meet, hany]
          · -- Both patterns stay what they are: the common text may be shortened.
            simp only [Bool.or_eq_true, not_or, Bool.not_eq_true, Option.isSome_eq_false_iff,
              Option.isNone_iff_eq_none] at hgo
            rw [hgo.1, Option.getD_none] at hp'
            rw [hgo.2, Option.getD_none] at hq'
            exact ih (fuel + 1) hp' hq'

theorem apart_of_meet {fuel : ℕ} (h : meet fuel p q = false) (hp : (regexMatch p s).isSome = true) :
    regexMatch q s = none := by
  by_contra hq
  have := meet_of_common fuel hp (Option.isSome_iff_ne_none.mpr hq)
  rw [h] at this
  cases this

/-! ## Many patterns -/

/-- Two patterns have no common text. -/
def Apart (p q : List Piece) : Prop :=
  ∀ s, (regexMatch p s).isSome = true → regexMatch q s = none

theorem Apart.symm (h : Apart p q) : Apart q p := fun s hq => by
  by_contra hp
  rw [h s (Option.isSome_iff_ne_none.mpr hp)] at hq
  cases hq

/-- The class of the first character, of a pattern that begins with a single one. -/
def first? : List Piece → Option CharClass
  | .one k :: _ => some k
  | _ => none

theorem first?_eq_some (h : first? p = some k) : p = .one k :: p.tail := by
  unfold first? at h
  split at h
  · obtain rfl := Option.some.inj h
    rfl
  · cases h

/-- Whether the first characters of two patterns differ. -/
def parted (p q : List Piece) : Bool :=
  match first? p, first? q with
  | some k, some l => !k.meets l
  | _, _ => false

/-- Whether two patterns begin with the same single character. -/
def alike : List Piece → List Piece → Bool
  | .one (.lit a) :: _, .one (.lit b) :: _ => a == b
  | .one .dot :: _, .one .dot :: _ => true
  | _, _ => false

theorem isSome_first?_of_alike (h : alike p q = true) : (first? q).isSome = true := by
  unfold alike at h
  split at h
  · rfl
  · rfl
  · cases h

/-- Patterns compared two by two. -/
def pairsApart : List (List Piece) → Bool
  | [] => true
  | p :: ps => ps.all (fun q => !meet 200 p q) && pairsApart ps

/-- The patterns that begin like another one. -/
def near (p : List Piece) (ps : List (List Piece)) : List (List Piece) :=
  ps.filter fun q => first? q = first? p

/-- The ones that do not. -/
def far (p : List Piece) (ps : List (List Piece)) : List (List Piece) :=
  ps.filter fun q => !decide (first? q = first? p)

/-- The patterns that begin with a single character, and the other ones. -/
def plain (ps : List (List Piece)) : List (List Piece) := ps.filter fun q => (first? q).isSome

def odd (ps : List (List Piece)) : List (List Piece) := ps.filter fun q => !(first? q).isSome

/-- First characters are taken off as long as there are single ones.  The patterns that
begin like the first one go on without the others, where it differs from all of them; so
do the ones that begin with a single character, when the others are compared with them. -/
def allApart : ℕ → List (List Piece) → Bool
  | 0, ps => pairsApart ps
  | _ + 1, [] => true
  | fuel + 1, p :: ps =>
    if (first? p).isSome && ps.all (alike p) then allApart fuel ((p :: ps).map List.tail)
    else if (p :: ps).all fun q => (first? q).isSome then
      if (far p ps).all (parted p) then
        allApart fuel ((near p (p :: ps)).map List.tail) && allApart fuel (far p ps)
      else allApart fuel ((p :: ps).map List.tail)
    else (odd (p :: ps)).all (fun q => (plain (p :: ps)).all fun r => !meet 200 q r) &&
      pairsApart (odd (p :: ps)) && allApart fuel (plain (p :: ps))

theorem Apart.of_tail {l : CharClass} (hp : first? p = some k) (hq : first? q = some l)
    (h : Apart p.tail q.tail) : Apart p q := by
  rw [first?_eq_some hp, first?_eq_some hq]
  intro s hs
  cases s with
  | nil => rfl
  | cons c s =>
      rw [regexMatch] at hs ⊢
      split at hs
      · split
        · exact h s hs
        · rfl
      · cases hs

theorem Apart.of_parted (h : parted p q = true) : Apart p q := by
  unfold parted at h
  split at h
  · rename_i k l hp hq
    rw [first?_eq_some hp, first?_eq_some hq]
    intro s hs
    cases s with
    | nil => rfl
    | cons c s =>
        rw [regexMatch] at hs ⊢
        by_cases hk : k.has c = true
        · refine if_neg fun hl => ?_
          rw [CharClass.meets_of_has hk hl] at h
          cases h
        · rw [if_neg hk] at hs
          cases hs
  · cases h

/-- A list is sorted out by a test. -/
theorem pairwise_of_filter {α : Type} {R : α → α → Prop} (hsymm : ∀ {a b}, R a b → R b a) {test : α → Bool}
    {l : List α} (hin : (l.filter test).Pairwise R) (hout : (l.filter fun a => !test a).Pairwise R)
    (hacross : ∀ a ∈ l, ∀ b ∈ l, test a = true → test b = false → R a b) : l.Pairwise R := by
  induction l with
  | nil => exact .nil
  | cons a l ih =>
      have hacross' : ∀ a ∈ l, ∀ b ∈ l, test a = true → test b = false → R a b := fun a ha b hb =>
        hacross a (List.mem_cons_of_mem _ ha) b (List.mem_cons_of_mem _ hb)
      cases ha : test a with
      | true =>
          rw [List.filter_cons_of_pos ha, List.pairwise_cons] at hin
          rw [List.filter_cons_of_neg (by simp [ha])] at hout
          refine List.pairwise_cons.mpr ⟨fun b hb => ?_, ih hin.2 hout hacross'⟩
          cases hb' : test b with
          | true => exact hin.1 b (List.mem_filter.mpr ⟨hb, hb'⟩)
          | false => exact hacross a List.mem_cons_self b (List.mem_cons_of_mem _ hb) ha hb'
      | false =>
          rw [List.filter_cons_of_neg (by simp [ha])] at hin
          rw [List.filter_cons_of_pos (by simp [ha]), List.pairwise_cons] at hout
          refine List.pairwise_cons.mpr ⟨fun b hb => ?_, ih hin hout.2 hacross'⟩
          cases hb' : test b with
          | true => exact hsymm (hacross b (List.mem_cons_of_mem _ hb) a List.mem_cons_self hb' ha)
          | false => exact hout.1 b (List.mem_filter.mpr ⟨hb, by simp [hb']⟩)

theorem pairwise_of_pairsApart {ps : List (List Piece)} (h : pairsApart ps = true) : ps.Pairwise Apart := by
  induction ps with
  | nil => exact .nil
  | cons p ps ih =>
      rw [pairsApart, Bool.and_eq_true, List.all_eq_true] at h
      refine List.pairwise_cons.mpr ⟨fun q hq s hs => ?_, ih h.2⟩
      exact apart_of_meet (by simpa using h.1 q hq) hs

/-- Patterns that are apart after their first characters are apart. -/
theorem pairwise_of_tail {ps : List (List Piece)} (hall : ∀ p ∈ ps, (first? p).isSome = true)
    (h : (ps.map List.tail).Pairwise Apart) : ps.Pairwise Apart := by
  refine (List.pairwise_map.mp h).imp_of_mem fun {p q} hp hq hapart => ?_
  obtain ⟨k, hk⟩ := Option.isSome_iff_exists.mp (hall p hp)
  obtain ⟨l, hl⟩ := Option.isSome_iff_exists.mp (hall q hq)
  exact hapart.of_tail hk hl

/-- **No two patterns have a common text.** -/
theorem pairwise_of_allApart {fuel : ℕ} {ps : List (List Piece)} (h : allApart fuel ps = true) :
    ps.Pairwise Apart := by
  induction fuel generalizing ps with
  | zero => exact pairwise_of_pairsApart h
  | succ fuel ih =>
      cases ps with
      | nil => exact .nil
      | cons p ps =>
          rw [allApart] at h
          by_cases halike : ((first? p).isSome && ps.all (alike p)) = true
          · rw [if_pos halike] at h
            rw [Bool.and_eq_true, List.all_eq_true] at halike
            exact pairwise_of_tail (List.forall_mem_cons.mpr
              ⟨halike.1, fun q hq => isSome_first?_of_alike (halike.2 q hq)⟩) (ih h)
          rw [if_neg halike] at h
          by_cases hall : ((p :: ps).all fun q => (first? q).isSome) = true
          swap
          · rw [if_neg hall, Bool.and_eq_true, Bool.and_eq_true, List.all_eq_true] at h
            refine pairwise_of_filter Apart.symm (ih h.2) (pairwise_of_pairsApart h.1.2) ?_
            intro q hq r hr hplain hodd
            have hmeet := List.all_eq_true.mp (h.1.1 r (List.mem_filter.mpr ⟨hr, by rw [hodd]; rfl⟩)) q
              (List.mem_filter.mpr ⟨hq, hplain⟩)
            exact Apart.symm fun s hs => apart_of_meet (by simpa using hmeet) hs
          rw [if_pos hall] at h
          rw [List.all_eq_true] at hall
          by_cases hfar : (far p ps).all (parted p) = true
          swap
          · rw [if_neg hfar] at h
            exact pairwise_of_tail hall (ih h)
          rw [if_pos hfar, Bool.and_eq_true] at h
          rw [List.all_eq_true] at hfar
          have hself : far p (p :: ps) = far p ps := List.filter_cons_of_neg (by simp)
          have hout : (far p (p :: ps)).Pairwise Apart := by
            rw [hself]
            exact ih h.2
          refine pairwise_of_filter Apart.symm
            (pairwise_of_tail (fun q hq => hall q (List.mem_of_mem_filter hq)) (ih h.1)) hout ?_
          intro q _ r hr hsame hdiff
          have hparted : parted q r = parted p r := by
            rw [parted, parted, of_decide_eq_true hsame]
          refine .of_parted (hparted.trans (hfar r ?_))
          rw [← hself]
          exact List.mem_filter.mpr ⟨hr, by rw [hdiff]; rfl⟩

/-! ## Piece by piece -/

/-- The texts of a piece. -/
def Piece.Takes : Piece → List Char → Prop
  | .one k, a => ∃ c, a = [c] ∧ k.has c = true
  | .opt k, a => a = [] ∨ ∃ c, a = [c] ∧ k.has c = true
  | .star k, a => ∀ c ∈ a, k.has c = true
  | .group k, a => a ≠ [] ∧ ∀ c ∈ a, k.has c = true

theorem isSome_starMatch_iff :
    (starMatch k next s).isSome = true ↔
      ∃ a b, s = a ++ b ∧ (∀ c ∈ a, k.has c = true) ∧ (next b).isSome = true := by
  induction s with
  | nil =>
      constructor
      · exact fun h => ⟨[], [], rfl, by simp, h⟩
      · rintro ⟨a, b, hs, -, hb⟩
        obtain ⟨rfl, rfl⟩ := List.append_eq_nil_iff.mp hs.symm
        exact hb
  | cons c s ih =>
      rw [starMatch, Option.isSome_or, Bool.or_eq_true]
      constructor
      · rintro (h | h)
        · split at h
          · rename_i hc
            obtain ⟨a, b, rfl, ha, hb⟩ := ih.mp h
            exact ⟨c :: a, b, rfl, by simpa [hc] using ha, hb⟩
          · cases h
        · exact ⟨[], c :: s, rfl, by simp, h⟩
      · rintro ⟨a, b, hs, ha, hb⟩
        cases a with
        | nil =>
            obtain rfl : c :: s = b := hs
            exact .inr hb
        | cons d a =>
            obtain ⟨rfl, rfl⟩ := List.cons.inj hs
            rw [if_pos (ha c List.mem_cons_self)]
            exact .inl (ih.mpr ⟨a, b, rfl, fun d hd => ha d (List.mem_cons_of_mem _ hd), hb⟩)

/-- **A pattern takes a text piece by piece.** -/
theorem isSome_regexMatch_cons_iff (x : Piece) :
    (regexMatch (x :: p) s).isSome = true ↔
      ∃ a b, s = a ++ b ∧ x.Takes a ∧ (regexMatch p b).isSome = true := by
  cases x with
  | one k =>
      cases s with
      | nil => simp [regexMatch, Piece.Takes]
      | cons c s =>
          by_cases hc : k.has c = true
          · simp only [regexMatch, hc, if_true, Piece.Takes]
            constructor
            · exact fun h => ⟨[c], s, rfl, ⟨c, rfl, hc⟩, h⟩
            · rintro ⟨_, b, hs, ⟨d, rfl, -⟩, hb⟩
              obtain ⟨rfl, rfl⟩ := List.cons.inj hs
              exact hb
          · simp only [regexMatch, hc, Piece.Takes]
            refine ⟨fun h => absurd h (by simp), ?_⟩
            rintro ⟨_, b, hs, ⟨d, rfl, hd⟩, -⟩
            obtain ⟨rfl, rfl⟩ := List.cons.inj hs
            exact absurd hd hc
  | opt k =>
      simp only [regexMatch, Option.isSome_or, Bool.or_eq_true]
      constructor
      · rintro (h | h)
        · cases s with
          | nil => cases h
          | cons c s =>
              dsimp only at h
              split at h
              · exact ⟨[c], s, rfl, .inr ⟨c, rfl, ‹_›⟩, h⟩
              · cases h
        · exact ⟨[], s, rfl, .inl rfl, h⟩
      · rintro ⟨a, b, rfl, rfl | ⟨c, rfl, hc⟩, hb⟩
        · exact .inr hb
        · left
          simpa [hc] using hb
  | star k => exact isSome_starMatch_iff
  | group k =>
      cases s with
      | nil =>
          refine ⟨fun h => (by cases h), ?_⟩
          rintro ⟨a, b, hs, ⟨ha, -⟩, -⟩
          exact absurd (List.append_eq_nil_iff.mp hs.symm).1 ha
      | cons c s =>
          by_cases hc : k.has c = true
          · simp only [regexMatch, hc, if_true, Option.isSome_map, isSome_groupMatch,
              isSome_starMatch_iff]
            constructor
            · rintro ⟨a, b, rfl, ha, hb⟩
              exact ⟨c :: a, b, rfl, ⟨by simp, by simpa [hc] using ha⟩, hb⟩
            · rintro ⟨a, b, hs, ⟨hne, ha⟩, hb⟩
              obtain ⟨d, a, rfl⟩ := List.exists_cons_of_ne_nil hne
              obtain ⟨rfl, rfl⟩ := List.cons.inj hs
              exact ⟨a, b, rfl, fun d hd => ha d (List.mem_cons_of_mem _ hd), hb⟩
          · refine ⟨fun h => (by simp [regexMatch, hc] at h), ?_⟩
            rintro ⟨a, b, hs, ⟨hne, ha⟩, -⟩
            obtain ⟨d, a, rfl⟩ := List.exists_cons_of_ne_nil hne
            obtain ⟨rfl, rfl⟩ := List.cons.inj hs
            exact absurd (ha c List.mem_cons_self) hc

theorem regexMatch_append (hp : (regexMatch p s).isSome = true) {t : List Char}
    (hq : (regexMatch q t).isSome = true) : (regexMatch (p ++ q) (s ++ t)).isSome = true := by
  induction p generalizing s with
  | nil =>
      obtain rfl : s = [] := by
        by_contra hs
        simp [regexMatch, hs] at hp
      exact hq
  | cons x p ih =>
      obtain ⟨a, b, rfl, ha, hb⟩ := (isSome_regexMatch_cons_iff x).mp hp
      exact (isSome_regexMatch_cons_iff x).mpr ⟨a, b ++ t, by simp, ha, ih hb⟩

/-! ## What is captured -/

/-- Whether nothing is captured. -/
def groupless : List Piece → Bool
  | [] => true
  | .group _ :: _ => false
  | _ :: p => groupless p

/-- Whether a pattern takes only texts that are empty or begin with `d`. -/
def bounded (d : Char) : List Piece → Bool
  | [] => true
  | .one k :: _ => k = .lit d
  | [.opt k] => k = .lit d
  | _ => false

/-- A pattern with characters only before its group, which ends where the text does or
at the character it may not have. -/
def Delimited (d : Char) : List Piece → Bool
  | [] => true
  | .one _ :: p => Delimited d p
  | .group k :: p => k = .except d && bounded d p && groupless p
  | .opt _ :: p | .star _ :: p => groupless p

/-- How many characters stand before the group. -/
def groupAt : List Piece → Option ℕ
  | [] => none
  | .group _ :: _ => some 0
  | _ :: p => (groupAt p).map (· + 1)

/-- The part of a text from a position to the next `d`. -/
def part (d : Char) (n : ℕ) (s : List Char) : List Char :=
  (s.drop n).takeWhile (· != d)

theorem starMatch_eq_some {cap : List Char} (h : starMatch k next s = some cap) :
    ∃ b, next b = some cap := by
  induction s with
  | nil => exact ⟨_, h⟩
  | cons c s ih =>
      rw [starMatch, Option.or_eq_some_iff] at h
      rcases h with h | ⟨-, h⟩
      · split at h
        · exact ih h
        · cases h
      · exact ⟨_, h⟩

theorem groupMatch_eq_some {cap : List Char} (h : groupMatch k next s = some cap) :
    ∃ b, s = cap ++ b ∧ (∀ c ∈ cap, k.has c = true) ∧ (next b).isSome = true := by
  induction s generalizing cap with
  | nil =>
      obtain ⟨x, hx, rfl⟩ := Option.map_eq_some_iff.mp h
      exact ⟨[], rfl, by simp, by simp [hx]⟩
  | cons c s ih =>
      rw [groupMatch, Option.or_eq_some_iff] at h
      rcases h with h | ⟨-, h⟩
      · split at h
        · rename_i hc
          obtain ⟨cap, hcap, rfl⟩ := Option.map_eq_some_iff.mp h
          obtain ⟨b, rfl, hall, hb⟩ := ih hcap
          exact ⟨b, rfl, by simpa [hc] using hall, hb⟩
        · cases h
      · obtain ⟨x, hx, rfl⟩ := Option.map_eq_some_iff.mp h
        exact ⟨c :: s, rfl, by simp, by simp [hx]⟩

theorem groupless_of_delimited_cons {d : Char} {x : Piece} (h : Delimited d (x :: p) = true)
    (hone : ∀ k, x ≠ .one k) (hgroup : ∀ k, x ≠ .group k) : groupless (x :: p) = true := by
  cases x with
  | one k => exact absurd rfl (hone k)
  | group k => exact absurd rfl (hgroup k)
  | opt k | star k => exact h

theorem groupAt_of_groupless (h : groupless p = true) : groupAt p = none := by
  induction p with
  | nil => rfl
  | cons x p ih => cases x <;> simp_all [groupless, groupAt]

theorem regexMatch_groupless {cap : List Char} (hp : groupless p = true)
    (h : regexMatch p s = some cap) : cap = [] := by
  induction p generalizing s with
  | nil =>
      rw [regexMatch] at h
      split at h <;> simp_all
  | cons x p ih =>
      cases x with
      | group k => cases hp
      | one k =>
          cases s with
          | nil => cases h
          | cons c s =>
              simp only [regexMatch] at h
              split at h
              · exact ih hp h
              · cases h
      | opt k =>
          simp only [regexMatch, Option.or_eq_some_iff] at h
          rcases h with h | ⟨-, h⟩
          · cases s with
            | nil => cases h
            | cons c s =>
                dsimp only at h
                split at h
                · exact ih hp h
                · cases h
          · exact ih hp h
      | star k =>
          obtain ⟨b, hb⟩ := starMatch_eq_some h
          exact ih hp hb

theorem of_bounded {d : Char} (hp : bounded d p = true) (h : (regexMatch p s).isSome = true) :
    s = [] ∨ ∃ t, s = d :: t := by
  match p, hp with
  | [], _ =>
      by_contra hs
      simp only [not_or] at hs
      simp [regexMatch, hs.1] at h
  | .one k :: p, hp =>
      obtain rfl : k = .lit d := by simpa [bounded] using hp
      obtain ⟨a, b, rfl, ⟨c, rfl, hc⟩, -⟩ := (isSome_regexMatch_cons_iff _).mp h
      obtain rfl : d = c := by simpa [CharClass.has] using hc
      exact .inr ⟨b, rfl⟩
  | [.opt k], hp =>
      obtain rfl : k = .lit d := by simpa [bounded] using hp
      obtain ⟨a, b, rfl, rfl | ⟨c, rfl, hc⟩, hb⟩ := (isSome_regexMatch_cons_iff _).mp h
      · by_contra hs
        simp only [List.nil_append, not_or] at hs
        simp [regexMatch, hs.1] at hb
      · obtain rfl : d = c := by simpa [CharClass.has] using hc
        exact .inr ⟨b, rfl⟩

theorem takeWhile_ne_append {d : Char} {a b : List Char} (ha : ∀ c ∈ a, c ≠ d)
    (hb : b = [] ∨ ∃ t, b = d :: t) : (a ++ b).takeWhile (· != d) = a := by
  rw [List.takeWhile_append_of_pos (by simpa using ha)]
  rcases hb with rfl | ⟨t, rfl⟩ <;> simp

/-- **The group is the part of the text at its place**, and is not empty. -/
theorem regexMatch_delimited {d : Char} {cap : List Char} (hp : Delimited d p = true)
    (h : regexMatch p s = some cap) :
    cap = ((groupAt p).map (part d · s)).getD [] ∧ (groupAt p = none ∨ cap ≠ []) := by
  induction p generalizing s with
  | nil => exact ⟨regexMatch_groupless rfl h, .inl rfl⟩
  | cons x p ih =>
      cases x with
      | one k =>
          cases s with
          | nil => cases h
          | cons c s =>
              simp only [regexMatch] at h
              split at h
              · have := ih hp h
                simpa [groupAt, part, Function.comp_def] using this
              · cases h
      | opt k | star k =>
          have hless := groupless_of_delimited_cons hp (by simp) (by simp)
          rw [groupAt_of_groupless hless]
          exact ⟨regexMatch_groupless hless h, .inl rfl⟩
      | group k =>
          simp only [Delimited, Bool.and_eq_true, decide_eq_true_eq] at hp
          obtain ⟨⟨rfl, hbound⟩, -⟩ := hp
          cases s with
          | nil => cases h
          | cons c s =>
              simp only [regexMatch] at h
              split at h
              · rename_i hc
                obtain ⟨cap, hcap, rfl⟩ := Option.map_eq_some_iff.mp h
                obtain ⟨b, rfl, hall, hb⟩ := groupMatch_eq_some hcap
                have hcut : ∀ e ∈ c :: cap, e ≠ d := by
                  intro e he hed
                  rcases List.mem_cons.mp he with rfl | he
                  · simp [CharClass.has, hed] at hc
                  · simpa [CharClass.has, hed] using hall e he
                have := takeWhile_ne_append hcut (of_bounded hbound hb)
                simpa [groupAt, part] using this.symm
              · cases h

theorem not_mem_part (d : Char) (n : ℕ) (s : List Char) : d ∉ part d n s := fun hd => by
  simpa using List.all_eq_true.mp List.all_takeWhile d hd

/-- A `d` at the end does not change what stands before it. -/
theorem part_append (d : Char) (n : ℕ) (s : List Char) : part d n (s ++ [d]) = part d n s := by
  have hlast : ∀ t : List Char, (t ++ [d]).takeWhile (· != d) = t.takeWhile (· != d) := by
    intro t
    induction t with
    | nil => simp
    | cons c t ih => by_cases hc : c = d <;> simp [hc, ih]
  rw [part, part, List.drop_append]
  cases hn : n - s.length with
  | zero => exact hlast _
  | succ m =>
      have : s.drop n = [] := List.drop_eq_nil_of_le (by omega)
      simp [this]

/-! ## The text a pattern spells -/

/-- The shortest text of a pattern, with `id` for the group. -/
def spell (id : List Char) : List Piece → List Char
  | [] => []
  | .one (.lit c) :: p => c :: spell id p
  | .one .dot :: p => '.' :: spell id p
  | .one (.except _) :: p => spell id p
  | .opt _ :: p | .star _ :: p => spell id p
  | .group _ :: p => id ++ spell id p

/-- Whether single characters are literals or dots. -/
def spelled : List Piece → Bool
  | [] => true
  | .one (.except _) :: _ => false
  | _ :: p => spelled p

theorem isSome_regexMatch_spell_groupless (id : List Char) (hp : groupless p = true)
    (hs : spelled p = true) : (regexMatch p (spell id p)).isSome = true := by
  induction p with
  | nil => rfl
  | cons x p ih =>
      refine (isSome_regexMatch_cons_iff x).mpr ?_
      match x with
      | .group _ => cases hp
      | .one (.lit c) => exact ⟨[c], _, rfl, ⟨c, rfl, by simp [CharClass.has]⟩, ih hp hs⟩
      | .one .dot => exact ⟨['.'], _, rfl, ⟨'.', rfl, rfl⟩, ih hp hs⟩
      | .one (.except _) => cases hs
      | .opt _ => exact ⟨[], _, rfl, .inl rfl, ih hp hs⟩
      | .star _ => exact ⟨[], _, rfl, by simp [Piece.Takes], ih hp hs⟩

variable {d : Char} {id : List Char}

theorem isSome_regexMatch_spell (hp : Delimited d p = true) (hs : spelled p = true)
    (hne : id ≠ []) (hid : d ∉ id) : (regexMatch p (spell id p)).isSome = true := by
  induction p with
  | nil => rfl
  | cons x p ih =>
      match x with
      | .one (.lit c) =>
          exact (isSome_regexMatch_cons_iff _).mpr
            ⟨[c], _, rfl, ⟨c, rfl, by simp [CharClass.has]⟩, ih hp hs⟩
      | .one .dot =>
          exact (isSome_regexMatch_cons_iff _).mpr ⟨['.'], _, rfl, ⟨'.', rfl, rfl⟩, ih hp hs⟩
      | .one (.except _) => cases hs
      | .opt _ | .star _ =>
          exact isSome_regexMatch_spell_groupless id
            (groupless_of_delimited_cons hp (by simp) (by simp)) hs
      | .group k =>
          simp only [Delimited, Bool.and_eq_true, decide_eq_true_eq] at hp
          obtain ⟨⟨rfl, -⟩, hp⟩ := hp
          refine (isSome_regexMatch_cons_iff _).mpr
            ⟨id, _, rfl, ⟨hne, fun c hc => ?_⟩, isSome_regexMatch_spell_groupless id hp hs⟩
          simpa [CharClass.has] using fun h : d = c => hid (h ▸ hc)

/-- **The group of the text a pattern spells is what it was spelled with.** -/
theorem part_spell {n : ℕ} (hp : Delimited d p = true) (hs : spelled p = true) (hid : d ∉ id)
    (hn : groupAt p = some n) : part d n (spell id p) = id := by
  induction p generalizing n with
  | nil => cases hn
  | cons x p ih =>
      match x with
      | .one (.lit c) | .one .dot =>
          obtain ⟨m, hm, rfl⟩ := Option.map_eq_some_iff.mp hn
          simpa [spell, part] using ih hp hs hm
      | .one (.except _) => cases hs
      | .opt _ | .star _ =>
          rw [groupAt_of_groupless (groupless_of_delimited_cons hp (by simp) (by simp))] at hn
          cases hn
      | .group k =>
          obtain rfl : 0 = n := by simpa [groupAt] using hn
          simp only [Delimited, Bool.and_eq_true, decide_eq_true_eq] at hp
          obtain ⟨⟨rfl, hbound⟩, hless⟩ := hp
          exact takeWhile_ne_append (fun c hc h => hid (h ▸ hc))
            (of_bounded hbound (isSome_regexMatch_spell_groupless id hless hs))

end matching
end Aes67Daemon.Pattern
