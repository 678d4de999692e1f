import Aes67Daemon.Session.Outside
import Aes67Daemon.Session.Worker

/-!
# Runs with a clock

Between the requests on streams the session manager hears of the clock: a new
PTP configuration, a new sample rate, and the status the worker asks for in
every tick.

## Main definitions

* `Event`, `SessionManager.occur` — what happens to the session manager.
* `SessionManager.start` — the state in which the worker starts.
* `find?_of_occur` — what is stored after an event.
* `SessionManager.InRange` — no stream has an id above `stream_id_max`.
-/
namespace Aes67Daemon

open Text

/-- What happens to a session manager. -/
inductive Event
  | request (r : Request)
  | setPtpConfig (reply : Option ErrorCode) (config : PTPConfig)
  | setSampleRate (rate : UInt32)
  | ptpTick (env : Env) (report : Option TPTPStatus)

namespace SessionManager
variable {host : Host}

/-- The state after an event. -/
def occur (host : Host) (s : SessionManager) : Event → Option SessionManager
  | .request r => s.step host r
  | .setPtpConfig reply config => some (s.setPtpConfig reply config).2
  | .setSampleRate rate => some (s.setSampleRate rate)
  | .ptpTick env report => some (s.ptpTick host env report)

/-- The state in which the worker starts, `now` seconds since the epoch, with one
observer of the sources. -/
def start (host : Host) (env : Env) (now : ℕ) : SessionManager :=
  { create host with updateSourceObservers := 1 }.init host env now

/-- Whether a tick of the worker finds a new grandmaster or a new sample rate. -/
def Updates (s : SessionManager) (report : Option TPTPStatus) : Prop :=
  ∃ r, report = some r ∧
    (s.ptp.status.gmid ≠ formatGmid r.ui64GMID ∨ s.workerSampleRate ≠ s.driver.sampleRate)

/-- What a tick of the worker does. -/
theorem ptpTick_cases (host : Host) (env : Env) (report : Option TPTPStatus) (s : SessionManager) :
    (¬ s.Updates report ∧ ∃ status : PTPStatus, status.gmid = s.ptp.status.gmid ∧
      s.ptpTick host env report = { s with ptp.status := status }) ∨
    (s.Updates report ∧ ∃ (status : PTPStatus) (told : List Notification),
      s.ptpTick host env report =
        { s with
          ptp.status := status
          workerSampleRate := s.driver.sampleRate
          sources := s.sources.mapVal fun _ info => bump s.updateSourceObservers info
          notifications := told
          gSessionVersion := s.gSessionVersion + 1 }) := by
  cases report with
  | none => exact .inl ⟨(fun ⟨_, h, _⟩ => nomatch h), s.ptp.status, rfl, rfl⟩
  | some r =>
      simp only [ptpTick]
      split
      · rename_i hnew
        have hnew : s.ptp.status.gmid ≠ formatGmid r.ui64GMID ∨
            s.workerSampleRate ≠ s.driver.sampleRate := by
          simpa [PTPStatus.ofReport] using hnew
        exact .inr ⟨⟨r, rfl, hnew⟩, PTPStatus.ofReport r, _, rfl⟩
      · rename_i hsame
        have hsame : s.ptp.status.gmid = formatGmid r.ui64GMID ∧
            s.workerSampleRate = s.driver.sampleRate := by
          simpa [PTPStatus.ofReport] using hsame
        refine .inl ⟨?_, PTPStatus.ofReport r, hsame.1.symm, rfl⟩
        rintro ⟨r', hr, hnew⟩
        obtain rfl := Option.some.inj hr
        exact hnew.elim (fun h => h hsame.1) (fun h => h hsame.2)

/-- **What is stored after an event** was stored before, or is a source whose
observers were told, or a request has just prepared it. -/
theorem find?_of_occur {s s' : SessionManager} {e : Event} (h : s.occur host e = some s')
    {k : Kind} {id : UInt8} {info' : StreamInfo} (hf : (s'.books.table k).find? id = some info') :
    (s.books.table k).find? id = some info' ∨
    (∃ env report info, e = .ptpTick env report ∧ s.Updates report ∧ k = .source ∧
      s.sources.find? id = some info ∧ info' = bump s.updateSourceObservers info) ∨
    ∃ r info, e = .request r ∧ r.kind = k ∧ r.id = id ∧ r.prepared host s = some info ∧
      Stored host r info info' := by
  cases e with
  | request r =>
      obtain ⟨⟨ret, t⟩, hserve, rfl⟩ := Option.map_eq_some_iff.mp h
      rcases find?_of_serve (serve_books hserve) hf with hold | ⟨info, hk, hid, hprep, hstored⟩
      · exact .inl hold
      · exact .inr (.inr ⟨r, info, rfl, hk, hid, hprep, hstored⟩)
  | setPtpConfig reply config =>
      obtain rfl := Option.some.inj h
      left
      cases reply <;> exact hf
  | setSampleRate rate =>
      obtain rfl := Option.some.inj h
      exact .inl hf
  | ptpTick env report =>
      obtain rfl := Option.some.inj h
      rcases ptpTick_cases host env report s with ⟨-, status, -, hs⟩ | ⟨hu, status, told, hs⟩
      · rw [hs] at hf
        exact .inl hf
      · rw [hs] at hf
        cases k with
        | sink => exact .inl hf
        | source =>
            rw [books_source, SortedMap.find?_mapVal] at hf
            obtain ⟨info, hinfo, rfl⟩ := Option.map_eq_some_iff.mp hf
            exact .inr (.inl ⟨env, report, info, rfl, hu, rfl, hinfo, rfl⟩)

/-! ## Ids in range -/

/-- No stream has an id above `stream_id_max`. -/
def InRange (s : SessionManager) : Prop :=
  ∀ k id info, (s.books.table k).find? id = some info → id.toNat ≤ streamIdMax

theorem inRange_occur {s s' : SessionManager} {ev : Event} (H : s.InRange)
    (hs : s.occur host ev = some s') : s'.InRange := by
  intro k id info' hf
  rcases find?_of_occur hs hf with hold | ⟨env, report, info, -, -, rfl, hinfo, -⟩ |
    ⟨r, info, -, rfl, rfl, hprep, -⟩
  · exact H k id info' hold
  · exact H .source id info hinfo
  · rcases prepared_cases hprep with ⟨env, source, stream, rfl, hid, -⟩ | ⟨env, sink, rfl, hid, -⟩
    · exact hid.1
    · exact hid

theorem inRange_start {env : Env} (now : ℕ) : (start host env now).InRange := by
  intro k id info hf
  cases k <;> cases hf

end SessionManager
end Aes67Daemon
