import Aes67Daemon.Rtsp.Framing

/-!
# The accounting of the buffer

`process_request` counts the bytes of a request line by line, and `read_request` shifts the
buffer by the count and takes it off `length_`.  Here the loop over the requests is taken apart:
between two attempts the directory may change and updates may be announced.

## Main definitions

* `RtspReader.step` — a read, an attempt to process a request, an announcement.
* `RtspSession.Accounted` — a request counts no more bytes than there are, and at least one.
* `RtspSession.Cut` — the buffers for which this fails, by `accounted_iff`.
* `RtspReader.Accounting` — what is asked of a run.
* `RtspReader.accounting_iff` — when a run has it.
-/
namespace Aes67Daemon

open Text

/-- A session, and whether it is in the loop over the requests; otherwise it waits for a read. -/
structure RtspReader where
  session : RtspSession := {}
  looping : Bool := false

inductive ReaderEvent
  /-- `async_read_some` has read this much. -/
  | read (chunk : Text)
  /-- The loop condition; the directory is what the session manager answers just then. -/
  | attempt (dir : Directory)
  | announce (id : UInt8) (name sdp : Text)

namespace RtspReader

/-- A step of `read_request`.  No more is read than there is room for, and a session whose buffer
is full has been stopped.  When more is counted than there is, `length_ - consumed_` wraps around
and `memmove` leaves the buffer: that is no step, like an exception of `parse_url`. -/
def step (h : RtspHost) (s : RtspReader) : ReaderEvent → Option RtspReader
  | .read chunk =>
    if s.looping ∨ s.session.buffer.length = RtspSession.maxLength ∨
        RtspSession.maxLength - s.session.buffer.length < chunk.length then none
    else some ⟨{ s.session with buffer := s.session.buffer ++ chunk }, true⟩
  | .attempt dir =>
    if ¬s.looping then none
    else if s.session.buffer = [] then some ⟨s.session, false⟩
    else
      (s.session.processRequest h dir).bind fun
        | (none, t) => some ⟨t, false⟩
        | (some consumed, t) =>
          if t.buffer.length < consumed then none
          else some ⟨{ t with buffer := t.buffer.drop consumed, cseq := -1 }, true⟩
  | .announce id name sdp => some { s with session := s.session.announce id name sdp }

end RtspReader

/-! ## One attempt -/

namespace RtspSession
variable {h : RtspHost} {dir : Directory} {s s' : RtspSession}

/-- A request that is processed takes bytes off the buffer, and no more than there are. -/
def Accounted (h : RtspHost) (dir : Directory) (s : RtspSession) : Prop :=
  ∀ consumed s', s.processRequest h dir = some (some consumed, s') →
    1 ≤ consumed ∧ consumed ≤ s.buffer.length

/-- The buffer has no null byte and ends in the carriage return of the empty line that ends its
first request, and answering that request does not throw. -/
def Cut (h : RtspHost) (dir : Directory) (s : RtspSession) : Prop :=
  '\x00' ∉ s.buffer ∧ ∃ o : OpenRequest, s.buffer = o.text ++ ['\r'] ∧
    Aes67Daemon.answer h dir (requestFields o.line) (lastCseq s.cseq o.headers) ≠ none

theorem notMem_upToNul (t : Text) : '\x00' ∉ upToNul t := fun hmem => by
  simpa using List.mem_takeWhile_imp hmem

theorem length_upToNul_lt {t : Text} (h : '\x00' ∈ t) : (upToNul t).length < t.length := by
  refine lt_of_le_of_ne (List.takeWhile_sublist _).length_le fun heq => notMem_upToNul t ?_
  have hall : upToNul t = t := (List.takeWhile_prefix _).eq_of_length heq
  rwa [hall]

/-- Nothing behind a null byte is looked at. -/
theorem processRequest_upToNul (h : RtspHost) (dir : Directory) (s : RtspSession) :
    s.processRequest h dir =
      (processRequest h dir { s with buffer := upToNul s.buffer }).map fun r =>
        (r.1, { r.2 with buffer := s.buffer }) := by
  rw [processRequest, processRequest, upToNul_eq_self_iff.mpr (notMem_upToNul s.buffer)]
  split
  · rfl
  · split
    · rfl
    · dsimp only
      split
      · rw [Option.map_map]
        rfl
      · rfl

/-- An attempt leaves the buffer to the caller. -/
theorem buffer_of_processRequest {r : Option ℕ} (hp : s.processRequest h dir = some (r, s')) :
    s'.buffer = s.buffer := by
  rw [processRequest] at hp
  split at hp
  · cases hp
    rfl
  · split at hp
    · cases hp
      rfl
    · dsimp only at hp
      split at hp
      · obtain ⟨a, -, hpair⟩ := Option.map_eq_some_iff.mp hp
        cases hpair
        rfl
      · cases hp
        rfl

/-- The text of a request is at least as long as what is counted, but for a carriage return at
its end. -/
theorem consumed_le (hnul : '\x00' ∉ s.buffer) {consumed : ℕ}
    (hp : s.processRequest h dir = some (some consumed, s')) :
    consumed ≤ s.buffer.length ∨ consumed = s.buffer.length + 1 ∧ Cut h dir s := by
  rcases processRequest_cases h dir hnul with ⟨o, e, t, he, hbuffer⟩ | ⟨o, hbuffer⟩ | ⟨cseq, hmore, -⟩
  · left
    rw [processRequest_complete hnul he hbuffer] at hp
    obtain ⟨a, -, hpair⟩ := Option.map_eq_some_iff.mp hp
    simp only [Prod.mk.injEq, Option.some.injEq] at hpair
    rw [← hpair.1, hbuffer]
    simp only [List.length_append, List.length_cons]
    omega
  · right
    rw [processRequest_cut hnul hbuffer] at hp
    obtain ⟨a, ha, hpair⟩ := Option.map_eq_some_iff.mp hp
    simp only [Prod.mk.injEq, Option.some.injEq] at hpair
    exact ⟨hpair.1.symm, hnul, o, hbuffer, by rw [ha]; exact Option.some_ne_none a⟩
  · rw [hmore] at hp
    cases hp

/-- **One attempt**: the count is right for every buffer but one that is cut. -/
theorem accounted_iff_not_cut (h : RtspHost) (dir : Directory) (s : RtspSession) :
    Accounted h dir s ↔ ¬Cut h dir s := by
  constructor
  · rintro hacc ⟨hnul, o, hbuffer, hanswer⟩
    obtain ⟨a, ha⟩ := Option.ne_none_iff_exists'.mp hanswer
    have hle := (hacc _ _ (by rw [processRequest_cut hnul hbuffer, ha]; rfl)).2
    omega
  · intro hcut consumed s' hp
    refine ⟨(processRequest_done hp).1, ?_⟩
    by_cases hnul : '\x00' ∈ s.buffer
    · rw [processRequest_upToNul] at hp
      obtain ⟨⟨r, s₁⟩, hp, hpair⟩ := Option.map_eq_some_iff.mp hp
      simp only [Prod.mk.injEq] at hpair
      obtain ⟨rfl, -⟩ := hpair
      have hshort := length_upToNul_lt hnul
      rcases consumed_le (notMem_upToNul s.buffer) hp with hle | ⟨heq, -⟩
      · exact hle.trans hshort.le
      · dsimp only at heq
        omega
    · exact (consumed_le hnul hp).resolve_right fun hno => hcut hno.2

end RtspSession

/-! ## Runs -/

namespace RtspReader
variable {h : RtspHost} {s s' : RtspReader} {es : List ReaderEvent}

/-- What is asked of a run: every request that is processed counts no more bytes than there are,
the buffer never holds more than its size, and the loop, wherever it is, makes no more attempts
than it has bytes, and one. -/
structure Accounting (h : RtspHost) (s : RtspReader) (es : List ReaderEvent) : Prop where
  accounted : Along (step h) (fun s e => ∀ dir, e = .attempt dir → s.looping = true →
    s.session.Accounted h dir) s es
  length_le : ∀ n s', run (step h) s (es.take n) = some s' →
    s'.session.buffer.length ≤ RtspSession.maxLength
  terminates : ∀ n s', run (step h) s (es.take n) = some s' →
    ∀ (dirs : List Directory) s'', run (step h) s' (dirs.map .attempt) = some s'' →
      dirs.length ≤ s'.session.buffer.length + 1

theorem step_attempt {dir : Directory} (hs : s.step h (.attempt dir) = some s') :
    s.looping = true ∧
      (s'.looping = false ∧ s'.session.buffer = s.session.buffer ∨
        s'.looping = true ∧ s'.session.buffer.length < s.session.buffer.length) := by
  simp only [step] at hs
  split at hs
  · cases hs
  next hloop =>
    refine ⟨by simpa using hloop, ?_⟩
    split at hs
    · obtain rfl := Option.some.inj hs
      exact .inl ⟨rfl, rfl⟩
    · obtain ⟨⟨r, t⟩, hp, hs⟩ := Option.bind_eq_some_iff.mp hs
      cases r with
      | none =>
        obtain rfl := Option.some.inj hs
        exact .inl ⟨rfl, RtspSession.buffer_of_processRequest hp⟩
      | some consumed =>
        obtain ⟨hpos, hbuffer⟩ := RtspSession.processRequest_done hp
        obtain ⟨hroom, heq⟩ := Option.ite_none_left_eq_some.mp hs
        obtain rfl := Option.some.inj heq
        refine .inr ⟨rfl, ?_⟩
        rw [hbuffer] at hroom ⊢
        rw [List.length_drop]
        omega

/-- A step does not put more into the buffer than there is room for. -/
theorem step_length (hle : s.session.buffer.length ≤ RtspSession.maxLength) {e : ReaderEvent}
    (hs : s.step h e = some s') : s'.session.buffer.length ≤ RtspSession.maxLength := by
  cases e with
  | read chunk =>
    simp only [step] at hs
    split at hs
    · cases hs
    next hroom =>
      obtain rfl := Option.some.inj hs
      simp only [not_or] at hroom
      simp only [List.length_append]
      omega
  | attempt dir =>
    rcases (step_attempt hs).2 with ⟨-, heq⟩ | ⟨-, hlt⟩
    · rw [heq]
      exact hle
    · omega
  | announce id name sdp =>
    obtain rfl := Option.some.inj hs
    simp only [RtspSession.announce]
    split <;> exact hle

/-- The loop ends. -/
theorem attempts_le (dirs : List Directory) (hrun : run (step h) s (dirs.map .attempt) = some s') :
    dirs.length ≤ s.session.buffer.length + 1 := by
  induction dirs generalizing s with
  | nil => exact Nat.zero_le _
  | cons dir dirs ih =>
    rw [List.map_cons, run_cons] at hrun
    obtain ⟨s₁, hs₁, hrun⟩ := Option.bind_eq_some_iff.mp hrun
    rcases (step_attempt hs₁).2 with ⟨hdone, -⟩ | ⟨-, hlt⟩
    · cases dirs with
      | nil => exact Nat.le_add_left 1 _
      | cons dir' dirs =>
        rw [List.map_cons, run_cons] at hrun
        obtain ⟨s₂, hs₂, -⟩ := Option.bind_eq_some_iff.mp hrun
        rw [(step_attempt hs₂).1] at hdone
        cases hdone
    · have := ih hrun
      rw [List.length_cons]
      omega

/-- The loop, attempt by attempt. -/
theorem exists_attempts_of_serve {dir : Directory} {n : ℕ} {t t' : RtspSession} (hn : t.buffer.length ≤ n)
    (hserve : t.serve h dir n = some t') :
    ∃ k, run (step h) ⟨t, true⟩ (List.replicate k (.attempt dir)) = some ⟨t', false⟩ := by
  induction n generalizing t with
  | zero =>
    obtain rfl := Option.some.inj hserve
    refine ⟨1, ?_⟩
    have hempty : t.buffer = [] := List.length_eq_zero_iff.mp (Nat.le_zero.mp hn)
    simp [run_cons, step, hempty]
  | succ n ih =>
    rw [RtspSession.serve] at hserve
    split at hserve
    next hempty =>
      obtain rfl := Option.some.inj hserve
      exact ⟨1, by simp [run_cons, step, hempty]⟩
    next hne =>
      obtain ⟨⟨r, t₁⟩, hp, hserve⟩ := Option.bind_eq_some_iff.mp hserve
      cases r with
      | none =>
        obtain rfl := Option.some.inj hserve
        exact ⟨1, by simp [run_cons, step, hne, hp]⟩
      | some consumed =>
        obtain ⟨hroom, hserve⟩ := Option.ite_none_left_eq_some.mp hserve
        obtain ⟨hpos, hbuffer⟩ := RtspSession.processRequest_done hp
        have hshorter : (t₁.buffer.drop consumed).length ≤ n := by
          rw [List.length_drop, hbuffer]
          omega
        obtain ⟨k, hk⟩ := ih hshorter hserve
        refine ⟨k + 1, ?_⟩
        rw [List.replicate_succ, run_cons]
        simpa [step, hne, hp, hroom] using hk

/-- **Buffer accounting**: a run has it if and only if no attempt of it is made on a buffer that
is cut. -/
theorem accounting_iff (h : RtspHost) (s : RtspReader) (es : List ReaderEvent)
    (hle : s.session.buffer.length ≤ RtspSession.maxLength) :
    Accounting h s es ↔
      Along (step h) (fun s e => ∀ dir, e = .attempt dir → s.looping = true → ¬s.session.Cut h dir) s es := by
  constructor
  · intro hacc
    exact hacc.accounted.imp fun _ _ H dir he hloop => (RtspSession.accounted_iff_not_cut h dir _).mp (H dir he hloop)
  · intro hcut
    refine ⟨hcut.imp fun _ _ H dir he hloop => (RtspSession.accounted_iff_not_cut h dir _).mpr (H dir he hloop),
      fun n s' hrun => ?_, fun n s' _ dirs s'' hrun => attempts_le dirs hrun⟩
    exact run_keeps (P := fun _ _ => True) (fun _ _ _ hle _ hs => step_length hle hs) hle
      (along_of_forall fun _ _ => trivial) hrun

/-- A request that comes in two reads. -/
theorem accounting_two_reads : Accounting {} {}
    [.read "DESCRIBE rtsp://h/by-id/1 RTSP/1.0\r\nCSeq: 1\r\n".toList, .attempt (oneSource 1 "v=0".toList),
      .read "\r\n".toList, .attempt (oneSource 1 "v=0".toList), .attempt (oneSource 1 "v=0".toList)] := by
  refine (accounting_iff {} {} _ (Nat.zero_le _)).mpr ?_
  have hlast : ∀ s : RtspReader, s.session.buffer.getLast? ≠ some '\r' → ∀ dir, ¬s.session.Cut {} dir := by
    rintro s hne dir ⟨-, o, hbuffer, -⟩
    exact hne (by rw [hbuffer, List.getLast?_concat])
  refine Along.imp (P := fun s _ => s.session.buffer.getLast? ≠ some '\r') (fun s _ H dir _ _ => hlast s H dir) ?_
  decide +kernel

/-- The carriage return of the empty line is the last byte that has been read. -/
theorem accounting_cut : ¬Accounting {} {}
    [.read "DESCRIBE rtsp://h/by-id/1 RTSP/1.0\r\nCSeq: 1\r\n\r".toList, .attempt (oneSource 1 "v=0".toList)] := by
  intro hacc
  have hattempt := (hacc.accounted.2 _ rfl).1 _ rfl rfl
  have hcount : (RtspSession.processRequest {} (oneSource 1 "v=0".toList)
      { buffer := "DESCRIBE rtsp://h/by-id/1 RTSP/1.0\r\nCSeq: 1\r\n\r".toList }).map Prod.fst = some (some 47) := by
    decide +kernel
  obtain ⟨⟨r, s'⟩, hp, rfl⟩ := Option.map_eq_some_iff.mp hcount
  exact absurd (hattempt 47 s' hp).2 (by decide +kernel)

end RtspReader
end Aes67Daemon
