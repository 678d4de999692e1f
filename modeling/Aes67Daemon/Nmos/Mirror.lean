import Aes67Daemon.Nmos.Worker

/-!
# The resources and the streams

The NMOS manager has resources for the streams that are in use.  It learns of them
from the queue of events, and at times it lists all the streams there are.  A
source that is not in use is listed as well, but there is no event when it comes,
changes or goes.

## Main definitions

* `System.Mirrored` — what the keys of the resources have to do with the streams.
* `System.ListsLive` — a source that is listed is in use.
* `System.Settled` — nothing is left to do about a stream.
-/
namespace Aes67Daemon

open Text

namespace System
variable {h : NmosHost} {σ σ' : System} {k : Kind} {id : UInt8} {t : ℕ} {e : NmosEnv} {op : Op}
  {rest : List Op}

/-- When no event is queued about a stream: resources are written for a stream in use, those
there are belong to one or are going to be erased, and a stream in use has some or is going
to have some. -/
structure Mirrored (k : Kind) (id : UInt8) (σ : System) : Prop where
  writes : σ.nmos.queued k id = [] → ∀ push, σ.Doing (.write push) k id → σ.nmos.sm.live k id = true
  here : σ.nmos.queued k id = [] → σ.nmos.has k id = true →
    σ.nmos.sm.live k id = true ∨ σ.Doing .erase k id
  there : σ.nmos.queued k id = [] → σ.nmos.sm.live k id = true →
    σ.nmos.has k id = true ∨ (∃ push, σ.Doing (.write push) k id) ∨ σ.Listing k

/-- A source that is listed is in use, or there is an event about it in the queue. -/
def ListsLive (k : Kind) (id : UInt8) (σ : System) (l : Label) : Prop :=
  k = .source → ∀ t e rest, l = .turn t e → σ.threads.ops t = .getSources :: rest →
    ∀ info, σ.nmos.sm.sources.find? id = some info →
      info.enabled = true ∨ σ.nmos.queued .source id ≠ []

/-- What stays when neither the stream nor its resources change. -/
theorem mirrored_congr (H : σ.Mirrored k id)
    (hqueue : σ'.nmos.queued k id = [] → σ.nmos.queued k id = [] ∧
      σ'.nmos.sm.live k id = σ.nmos.sm.live k id)
    (hhas : σ'.nmos.has k id = σ.nmos.has k id) (hdoing : ∀ w, σ'.Doing w k id ↔ σ.Doing w k id)
    (hlisting : σ.Listing k → σ'.Listing k) : σ'.Mirrored k id := by
  refine ⟨fun hnil push hw => ?_, fun hnil hkey => ?_, fun hnil hlive => ?_⟩
  · obtain ⟨hold, hsame⟩ := hqueue hnil
    rw [hsame]
    exact H.writes hold push ((hdoing _).mp hw)
  · obtain ⟨hold, hsame⟩ := hqueue hnil
    rw [hsame]
    exact (H.here hold (hhas ▸ hkey)).imp_right (hdoing _).mpr
  · obtain ⟨hold, hsame⟩ := hqueue hnil
    rw [hhas]
    rcases H.there hold (hsame ▸ hlive) with hkey | ⟨push, hw⟩ | hlist
    · exact .inl hkey
    · exact .inr (.inl ⟨push, (hdoing _).mpr hw⟩)
    · exact .inr (.inr (hlisting hlist))

/-- A step of the session manager leaves the queue empty only when the stream stays as it is. -/
theorem live_of_queued_nil {s : NmosManager} {sm : SessionManager} {ev : Event} (hkeyed : s.sm.Keyed)
    (hsm : s.sm.occur h.host ev = some sm) (hnil : (s.hear sm).queued k id = []) :
    s.queued k id = [] ∧ sm.live k id = s.sm.live k id := by
  obtain ⟨news, hqueued, hfate⟩ := queued_fate k id hkeyed hsm
  rw [hqueued] at hnil
  obtain ⟨hold, hnews⟩ := List.append_eq_nil_iff.mp hnil
  rcases hfate.live_eq with ⟨-, hlive⟩ | hlast
  · exact ⟨hold, hlive⟩
  · rw [hnews] at hlast
    cases hlast

/-- The worker takes an event from the queue. -/
theorem mirrored_event {ev : NmosEvent} {evs : List NmosEvent} (H : σ.Mirrored k id)
    (hheard : σ.Heard k id) (hord : σ.Orderly) (hops : σ.threads.ops t = .nextEvent :: rest)
    (hqueue : σ.nmos.pendingEvents = ev :: evs) : (σ.turned h t e .nextEvent rest).Mirrored k id := by
  obtain ⟨-, -, halone⟩ := hord.alone hops rfl
  have hexec : Op.nextEvent.exec h e σ.nmos = (Op.handle ev, { σ.nmos with pendingEvents := evs }) := by
    rw [Op.exec, hqueue]
  have hnmos : (σ.turned h t e .nextEvent rest).nmos = { σ.nmos with pendingEvents := evs } :=
    congrArg Prod.snd hexec
  have hlive : (σ.turned h t e .nextEvent rest).nmos.sm.live k id = σ.nmos.sm.live k id := by rw [hnmos]
  have hhas : (σ.turned h t e .nextEvent rest).nmos.has k id = σ.nmos.has k id := by
    rw [hnmos]
    cases k <;> rfl
  have hqueued : σ.nmos.queued k id =
      (ev.news k id).toList ++ (σ.turned h t e .nextEvent rest).nmos.queued k id := by
    rw [hnmos, NmosManager.queued, NmosManager.queued, hqueue, List.filterMap_cons]
    cases ev.news k id <;> rfl
  have hnext : ∀ op' ∈ Op.handle ev, op' ∈ (Op.nextEvent.exec h e σ.nmos).1 := by
    rw [hexec]
    exact fun _ hmem => hmem
  -- the worker had nothing else to do
  have hidle : ∀ w, ¬ σ.Doing w k id := by
    rintro w ⟨t', op', hop', hwork⟩
    rw [halone t' op' hop' (Op.ofWorker_of_work hwork)] at hwork
    cases hwork
  have hunlisted : ¬ σ.Listing k := by
    rintro ⟨t', op', hop', hlists⟩
    rw [halone t' op' hop' (Op.ofWorker_of_lists hlists)] at hlists
    cases hlists
  have hnew : ∀ w, (σ.turned h t e .nextEvent rest).Doing w k id →
      w = .write true ∧ ev.news k id = some true ∨ w = .erase ∧ ev.news k id = some false := by
    intro w hw
    rcases Pool.ahead_turned hops hw with ⟨op', hop', hwork⟩ | hw
    · rw [hexec] at hop'
      exact news_of_handle hop' hwork
    · exact absurd hw (hidle w)
  cases hnews : ev.news k id with
  | none =>
      rw [hnews] at hqueued
      refine ⟨fun _ push hw => ?_, fun hnil hkey => ?_, fun hnil hin => ?_⟩
      · rcases hnew _ hw with ⟨-, h⟩ | ⟨-, h⟩ <;> simp [hnews] at h
      · refine .inl (hlive.trans ((H.here (hqueued.trans hnil) (hhas ▸ hkey)).resolve_right (hidle _)))
      · rcases H.there (hqueued.trans hnil) (hlive ▸ hin) with hkey | ⟨push, hw⟩ | hlist
        · exact .inl (hhas.trans hkey)
        · exact absurd hw (hidle _)
        · exact absurd hlist hunlisted
  | some b =>
      rw [hnews] at hqueued
      have hlast : (σ.turned h t e .nextEvent rest).nmos.queued k id = [] → σ.nmos.sm.live k id = b := by
        intro hnil
        exact hheard.queue b (by rw [hqueued, hnil]; rfl)
      have hdoes : (σ.turned h t e .nextEvent rest).Doing (if b then .write true else .erase) k id := by
        obtain ⟨op', hop', hwork⟩ := handle_of_news hnews
        exact Pool.ahead_of_mem_exec (hnext op' hop') hwork
      refine ⟨fun hnil push hw => ?_, fun hnil _ => ?_, fun hnil hin => ?_⟩
      · rcases hnew _ hw with ⟨-, hb⟩ | ⟨hw, -⟩
        · rw [hnews] at hb
          exact hlive.trans ((hlast hnil).trans (Option.some.inj hb))
        · cases hw
      · cases b with
        | true => exact .inl (hlive.trans (hlast hnil))
        | false => exact .inr hdoes
      · have hb : b = true := (hlast hnil).symm.trans (hlive ▸ hin)
        subst hb
        exact .inr (.inl ⟨true, hdoes⟩)

/-- A stream in use is stored. -/
theorem isSome_of_live {sm : SessionManager} (hlive : sm.live k id = true) :
    ((sm.books.table k).find? id).isSome = true := by
  rw [SessionManager.live] at hlive
  cases hfind : (sm.books.table k).find? id with
  | none => simp [hfind] at hlive
  | some info => rfl

/-- An operation that is about no stream. -/
theorem mirrored_silent (H : σ.Mirrored k id) (hops : σ.threads.ops t = op :: rest) (hop : op.Silent k id)
    (hnext : ∀ op' ∈ (op.exec h e σ.nmos).1, op'.Silent k id)
    (hsame : NmosManager.SameStreams k id σ.nmos (op.exec h e σ.nmos).2) :
    (σ.turned h t e op rest).Mirrored k id := by
  refine mirrored_congr H (fun hnil => ?_) hsame.has (fun w => ⟨fun hw => ?_, fun hw => ?_⟩) fun hlist => ?_
  · exact ⟨(NmosManager.queued_congr hsame.queue).symm.trans hnil, congrArg _ hsame.sm⟩
  · exact Pool.Ahead.of_turned hw hops fun op' hop' => (hnext op' hop').1 w
  · exact Pool.Ahead.turned hw hops (hop.1 w)
  · exact Pool.Ahead.turned hlist hops (by rw [hop.2]; decide)

/-- A connection adds its sink. -/
theorem mirrored_connect {sink : StreamSink} (H : σ.Mirrored k id) (hord : σ.Orderly)
    (hops : σ.threads.ops t = .connect sink :: rest) : (σ.turned h t e (.connect sink) rest).Mirrored k id := by
  have hocc : σ.nmos.sm.occur h.host (.request (.addSink e.env sink)) =
      some (σ.nmos.sm.addSink h.host e.env sink).2 := rfl
  refine mirrored_congr H (fun hnil => ?_) (by cases k <;> rfl) (fun w => ⟨fun hw => ?_, fun hw => ?_⟩) fun hlist => ?_
  · exact live_of_queued_nil hord.keyed hocc hnil
  · exact Pool.Ahead.of_turned hw hops (by simp [Op.exec])
  · exact Pool.Ahead.turned hw hops (by simp [Op.work?])
  · exact Pool.Ahead.turned hlist hops (by simp [Op.lists])

/-- A registration goes on with what it has read. -/
theorem mirrored_read {w : Work} {op' : Op} (H : σ.Mirrored k id) (hops : σ.threads.ops t = op :: rest)
    (hop : op.work? = some (w, k, id)) (hop' : op'.work? = some (w, k, id))
    (hnext : (op.exec h e σ.nmos).1 = [op']) (hs : (op.exec h e σ.nmos).2 = σ.nmos) :
    (σ.turned h t e op rest).Mirrored k id := by
  have hnmos : (σ.turned h t e op rest).nmos = σ.nmos := hs
  refine mirrored_congr H (fun hnil => ?_) (by rw [hnmos]) (fun w' => ⟨fun hw => ?_, fun hw => ?_⟩) fun hlist => ?_
  · rw [hnmos] at hnil ⊢
    exact ⟨hnil, rfl⟩
  · rcases Pool.ahead_turned hops hw with ⟨op₁, hmem, hwork⟩ | hw
    · rw [hnext, List.mem_singleton] at hmem
      rw [hmem, hop'] at hwork
      exact ⟨t, op, by rw [hops]; exact List.mem_cons_self, hop.trans hwork⟩
    · exact hw
  · by_cases hwork : op.work? = some (w', k, id)
    · refine Pool.ahead_of_mem_exec (by rw [hnext]; exact List.mem_singleton.mpr rfl) ?_
      exact hop'.trans (hop.symm.trans hwork)
    · exact Pool.Ahead.turned hw hops hwork
  · exact Pool.Ahead.turned hlist hops (by rw [Op.lists_of_work hop k]; decide)

/-- A registration does not find the stream: it is not in use, and so there is an event about it
in the queue. -/
theorem mirrored_lost {push : Bool} (H : σ.Mirrored k id) (hops : σ.threads.ops t = op :: rest)
    (hop : op.work? = some (.write push, k, id)) (hnone : (σ.nmos.sm.books.table k).find? id = none)
    (hs : (op.exec h e σ.nmos).2 = σ.nmos) : (σ.turned h t e op rest).Mirrored k id := by
  have hdead : σ.nmos.sm.live k id = false := by
    rw [SessionManager.live, hnone]
    rfl
  have hsome : ¬ (σ.turned h t e op rest).nmos.queued k id = [] := by
    intro hnil
    have hold : σ.nmos.queued k id = [] := (congrArg _ hs).symm.trans hnil
    have hlive := H.writes hold push ⟨t, op, by rw [hops]; exact List.mem_cons_self, hop⟩
    rw [hdead] at hlive
    cases hlive
  exact ⟨fun hnil => absurd hnil hsome, fun hnil => absurd hnil hsome, fun hnil => absurd hnil hsome⟩

/-- A registration writes the resources. -/
theorem mirrored_write {push : Bool} (H : σ.Mirrored k id) (hops : σ.threads.ops t = op :: rest)
    (hop : op.work? = some (.write push, k, id)) (hnext : ∀ op' ∈ (op.exec h e σ.nmos).1, op'.Silent k id)
    (hsm : (op.exec h e σ.nmos).2.sm = σ.nmos.sm)
    (hqueue : (op.exec h e σ.nmos).2.pendingEvents = σ.nmos.pendingEvents)
    (hhas : (op.exec h e σ.nmos).2.has k id = true) : (σ.turned h t e op rest).Mirrored k id := by
  have hqueued : (σ.turned h t e op rest).nmos.queued k id = σ.nmos.queued k id :=
    NmosManager.queued_congr hqueue
  have hlive : (σ.turned h t e op rest).nmos.sm.live k id = σ.nmos.sm.live k id := congrArg _ hsm
  have hnow : σ.Doing (.write push) k id := ⟨t, op, by rw [hops]; exact List.mem_cons_self, hop⟩
  refine ⟨fun hnil push' hw => ?_, fun hnil _ => ?_, fun _ _ => .inl hhas⟩
  · exact hlive.trans (H.writes (hqueued ▸ hnil) push'
      (Pool.Ahead.of_turned hw hops fun op' hop' => (hnext op' hop').1 _))
  · exact .inl (hlive.trans (H.writes (hqueued ▸ hnil) push hnow))

/-- The resources are erased. -/
theorem mirrored_erase (H : σ.Mirrored k id) (hheard : σ.Heard k id) (hops : σ.threads.ops t = op :: rest)
    (hop : op.work? = some (.erase, k, id)) (hnext : ∀ op' ∈ (op.exec h e σ.nmos).1, op'.Silent k id)
    (hsm : (op.exec h e σ.nmos).2.sm = σ.nmos.sm)
    (hqueue : (op.exec h e σ.nmos).2.pendingEvents = σ.nmos.pendingEvents)
    (hhas : (op.exec h e σ.nmos).2.has k id = false) : (σ.turned h t e op rest).Mirrored k id := by
  have hqueued : (σ.turned h t e op rest).nmos.queued k id = σ.nmos.queued k id :=
    NmosManager.queued_congr hqueue
  have hlive : (σ.turned h t e op rest).nmos.sm.live k id = σ.nmos.sm.live k id := congrArg _ hsm
  have hnow : σ.Doing .erase k id := ⟨t, op, by rw [hops]; exact List.mem_cons_self, hop⟩
  refine ⟨fun hnil push' hw => ?_, fun _ hkey => ?_, fun hnil hin => ?_⟩
  · exact hlive.trans (H.writes (hqueued ▸ hnil) push'
      (Pool.Ahead.of_turned hw hops fun op' hop' => (hnext op' hop').1 _))
  · exact absurd (hkey.symm.trans hhas) (by simp)
  · have hdead := hheard.erased (hqueued ▸ hnil) hnow
    rw [hlive, hdead] at hin
    cases hin

/-- The streams are listed, and each is going to be registered. -/
theorem mirrored_list (H : σ.Mirrored k id) (hops : σ.threads.ops t = op :: rest) (hop : op.lists k = true)
    (hlisted : k = .source → op = .getSources → ∀ info, σ.nmos.sm.sources.find? id = some info →
      info.enabled = true ∨ σ.nmos.queued .source id ≠ [])
    (hs : (op.exec h e σ.nmos).2 = σ.nmos)
    (hnext : ∀ op' ∈ (op.exec h e σ.nmos).1, ∀ w, op'.work? = some (w, k, id) →
      w = .write false ∧ op ≠ .fullRegistration ∧ ((σ.nmos.sm.books.table k).find? id).isSome = true)
    (hcover : ((σ.nmos.sm.books.table k).find? id).isSome = true →
      ∃ op' ∈ (op.exec h e σ.nmos).1, op'.work? = some (.write false, k, id) ∨ op'.lists k = true) :
    (σ.turned h t e op rest).Mirrored k id := by
  have hwork : ∀ w, op.work? ≠ some (w, k, id) := fun w heq => by
    rw [Op.lists_of_work heq k] at hop
    cases hop
  have hnmos : (σ.turned h t e op rest).nmos = σ.nmos := hs
  refine ⟨?_, ?_, ?_⟩
  · rw [hnmos]
    intro hnil push hw
    rcases Pool.ahead_turned hops hw with ⟨op', hop', hwork'⟩ | hw
    · obtain ⟨-, hne, hsome⟩ := hnext op' hop' _ hwork'
      obtain ⟨info, hinfo⟩ := Option.isSome_iff_exists.mp hsome
      rw [SessionManager.live, hinfo]
      cases k with
      | sink => rfl
      | source =>
          have hget : op = .getSources := by
            cases op <;> first | rfl | exact absurd rfl hne | cases hop
          exact (hlisted rfl hget info hinfo).resolve_right (fun hq => hq hnil)
    · exact H.writes hnil push hw
  · rw [hnmos]
    intro hnil hkey
    exact (H.here hnil hkey).imp_right fun hw => Pool.Ahead.turned hw hops (hwork _)
  · rw [hnmos]
    intro hnil hlive
    rcases H.there hnil hlive with hkey | ⟨push, hw⟩ | hlist
    · exact .inl hkey
    · exact .inr (.inl ⟨push, Pool.Ahead.turned hw hops (hwork _)⟩)
    · obtain ⟨op', hop', hcase⟩ := hcover (isSome_of_live hlive)
      rcases hcase with hw | hl
      · exact .inr (.inl ⟨false, Pool.ahead_of_mem_exec hop' hw⟩)
      · exact .inr (.inr (Pool.ahead_of_mem_exec hop' hl))

theorem mirrored_turned (H : σ.Mirrored k id) (hheard : σ.Heard k id) (hord : σ.Orderly)
    (hops : σ.threads.ops t = op :: rest)
    (hlisted : k = .source → op = .getSources → ∀ info, σ.nmos.sm.sources.find? id = some info →
      info.enabled = true ∨ σ.nmos.queued .source id ≠ []) :
    (σ.turned h t e op rest).Mirrored k id := by
  cases Op.moves_exec h e k id σ.nmos op with
  | silent hop hnext hs => exact mirrored_silent H hops hop hnext hs
  | connect sink hop hnext hs =>
      subst hop
      exact mirrored_connect H hord hops
  | event ev evs hop hqueue hnext hs =>
      subst hop
      exact mirrored_event H hheard hord hops hqueue
  | read hop hop' hnext hs => exact mirrored_read H hops hop hop' hnext hs
  | lost hop hnone hnext hs => exact mirrored_lost H hops hop hnone hs
  | write hop hnext hsm hqueue hhas => exact mirrored_write H hops hop hnext hsm hqueue hhas
  | erase hop hnext hsm hqueue hhas => exact mirrored_erase H hheard hops hop hnext hsm hqueue hhas
  | list hop hs hnext hcover => exact mirrored_list H hops hop hlisted hs hnext hcover

/-- **The resources keep up with the streams**, when the sources that are listed are in use. -/
theorem mirrored_step {l : Label} (H : σ.Mirrored k id) (hheard : σ.Heard k id) (hord : σ.Orderly)
    (hl : σ.ListsLive k id l) (hs : σ.step h l = some σ') : σ'.Mirrored k id := by
  rcases step_cases hs with ⟨ev, sm, -, hsm, rfl⟩ | ⟨found, -, rfl⟩ | ⟨t, op, -, hstart, -, hidle, rfl⟩ |
    ⟨t, e, op, rest, rfl, -, hops, rfl⟩
  · refine mirrored_congr H (fun hnil => ?_) (by cases k <;> rfl) (fun w => .rfl) (fun hlist => hlist)
    exact live_of_queued_nil hord.keyed hsm hnil
  · refine mirrored_congr H (fun hnil => ⟨?_, rfl⟩) (by cases k <;> rfl) (fun w => .rfl) (fun hlist => hlist)
    exact (σ.nmos.queued_discover k id found).symm.trans hnil
  · refine mirrored_congr H (fun hnil => ⟨hnil, rfl⟩) rfl (fun w => ?_) fun hlist => ?_
    · exact Pool.ahead_started hidle (by rw [Op.work?_of_startsOn hstart]; simp)
    · exact hlist.started hidle
  · refine mirrored_turned H hheard hord hops fun hk hop info hinfo => ?_
    exact hl hk t e rest rfl (hop ▸ hops) info hinfo

/-- When the NMOS manager starts it has no resources, and lists all the streams. -/
theorem mirrored_boot {sm : SessionManager} {e₀ : NmosEnv} : (boot h e₀ sm).Mirrored k id ∧
    (boot h e₀ sm).Heard k id := by
  have hops : ∀ t, ∀ op ∈ (boot h e₀ sm).threads.ops t, op ∈ Op.boot := by
    intro t op hop
    simp only [boot] at hop
    split at hop
    · exact hop
    · cases hop
  have hidle : ∀ w, ¬ (boot h e₀ sm).Doing w k id := by
    rintro w ⟨t, op, hop, hwork⟩
    have hmem := hops t op hop
    simp only [Op.boot, List.mem_cons, List.not_mem_nil, or_false] at hmem
    rcases hmem with rfl | rfl | rfl | rfl <;> cases hwork
  have hlisting : (boot h e₀ sm).Listing k :=
    ⟨0, .fullRegistration, by simp [boot, Op.boot], rfl⟩
  refine ⟨⟨fun _ push hw => absurd hw (hidle _), fun _ hkey => ?_, fun _ _ => .inr (.inr hlisting)⟩,
    ⟨fun b hb => ?_, fun _ hw => absurd hw (hidle _), fun _ hw => absurd hw (hidle _)⟩⟩
  · cases k <;> cases hkey
  · cases hb

/-! ## When the worker is done -/

/-- Nothing is left to do about a stream. -/
structure Settled (k : Kind) (id : UInt8) (σ : System) : Prop where
  queue : σ.nmos.queued k id = []
  done : ∀ w, ¬ σ.Doing w k id
  listed : ¬ σ.Listing k

/-- When no thread has anything to do and the queue is empty, nothing is left to do about any
stream. -/
theorem settled_of_idle (hqueue : σ.nmos.pendingEvents = []) (hidle : ∀ t, σ.threads.ops t = []) :
    σ.Settled k id := by
  have hnone : ∀ p : Op → Prop, ¬ σ.threads.Ahead p := by
    rintro p ⟨t, op, hop, -⟩
    rw [hidle] at hop
    cases hop
  refine ⟨?_, fun w => hnone _, hnone _⟩
  rw [NmosManager.queued, hqueue]
  rfl

/-- Along every run the resources keep up with the streams. -/
theorem mirrored_run {env : Env} {now : ℕ} {before : List Event} {sm : SessionManager} {e₀ : NmosEnv}
    {labels : List Label}
    (hbefore : run (SessionManager.occur h.host) (SessionManager.start h.host env now) before = some sm)
    (hlists : Along (step h) (ListsLive k id) (boot h e₀ sm) labels)
    (hrun : run (step h) (boot h e₀ sm) labels = some σ) :
    σ.Mirrored k id ∧ σ.Heard k id ∧ σ.Orderly := by
  have hkeyed : sm.Keyed := SessionManager.keyed_run hbefore
  have hstep : ∀ (σ : System) l σ', σ.Mirrored k id ∧ σ.Heard k id ∧ σ.Orderly → σ.ListsLive k id l →
      σ.step h l = some σ' → σ'.Mirrored k id ∧ σ'.Heard k id ∧ σ'.Orderly := by
    intro σ l σ' hinv hl hs
    obtain ⟨hmirrored, hheard, hord⟩ := hinv
    exact ⟨mirrored_step hmirrored hheard hord hl hs, heard_step hheard hord hs, orderly_step hord hs⟩
  have hboot : (boot h e₀ sm).Mirrored k id ∧ (boot h e₀ sm).Heard k id ∧ (boot h e₀ sm).Orderly :=
    ⟨mirrored_boot.1, mirrored_boot.2, orderly_boot hkeyed⟩
  exact run_keeps hstep hboot hlists hrun

/-- The receivers keep up with the sinks in every reachable state. -/
theorem Reachable.mirrored (H : σ.Reachable h) (id : UInt8) :
    σ.Mirrored .sink id ∧ σ.Heard .sink id ∧ σ.Orderly := by
  obtain ⟨env, now, before, sm, e₀, labels, hbefore, hrun⟩ := H
  exact mirrored_run hbefore (along_of_forall (P := fun _ => True) (fun _ _ => trivial) |>.imp
    fun _ _ _ hk => nomatch hk) hrun

/-- The last word about a stream is true in every reachable state. -/
theorem Reachable.heard (H : σ.Reachable h) (k : Kind) (id : UInt8) : σ.Heard k id := by
  obtain ⟨env, now, before, sm, e₀, labels, hbefore, hrun⟩ := H
  have hstep : ∀ (σ : System) l σ', σ.Heard k id ∧ σ.Orderly → True → σ.step h l = some σ' →
      σ'.Heard k id ∧ σ'.Orderly :=
    fun _ _ _ hinv _ hs => ⟨heard_step hinv.1 hinv.2 hs, orderly_step hinv.2 hs⟩
  have hboot : (boot h e₀ sm).Heard k id ∧ (boot h e₀ sm).Orderly :=
    ⟨mirrored_boot.2, orderly_boot (SessionManager.keyed_run hbefore)⟩
  exact (run_keeps hstep hboot (along_of_forall fun _ _ => trivial) hrun).1

/-- **The resources mirror the streams.**  When nothing is left to do about a sink, there is a
receiver exactly if the sink is stored.  For a source there is a sender exactly if it is stored
and enabled, in every run in which it is enabled, or has an event in the queue, whenever the
sources are listed. -/
theorem resources_mirror {env : Env} {now : ℕ} {before : List Event} {sm : SessionManager} {e₀ : NmosEnv}
    {labels : List Label}
    (hbefore : run (SessionManager.occur h.host) (SessionManager.start h.host env now) before = some sm)
    (hlists : Along (step h) (ListsLive k id) (boot h e₀ sm) labels)
    (hrun : run (step h) (boot h e₀ sm) labels = some σ) (hsettled : σ.Settled k id) :
    σ.nmos.has k id = σ.nmos.sm.live k id := by
  have H : σ.Mirrored k id := (mirrored_run hbefore hlists hrun).1
  rw [Bool.eq_iff_iff]
  constructor
  · intro hkey
    exact (H.here hsettled.queue hkey).resolve_right (hsettled.done _)
  · intro hlive
    rcases H.there hsettled.queue hlive with hkey | ⟨push, hw⟩ | hlist
    · exact hkey
    · exact absurd hw (hsettled.done _)
    · exact absurd hlist hsettled.listed

/-- A source that is not in use. -/
def spareSource : StreamSource := { stereoSource 1 "a".toList with enabled := false }

theorem resources_mirror_stream : ∃ sm σ,
    run (SessionManager.occur {}) (SessionManager.start {} {} 0) soleSource.1 = some sm ∧
    run (step {}) (boot {} {} sm) soleSource.2 = some σ ∧ σ.nmos.sm.live .source 1 = true ∧
    σ.nmos.has .source 1 = σ.nmos.sm.live .source 1 := by
  have himp : ∀ (σ : System) l, σ.Quiet 2 → (σ.nmos.sm.sources.find? 1).all StreamInfo.enabled = true →
      σ.ListsLive .source 1 l := by
    intro σ l _ hcheck _ t e rest _ _ info hinfo
    rw [hinfo] at hcheck
    exact .inl hcheck
  obtain ⟨sm, σ, hbefore, hlists, hrun, hquiet, ⟨hidle0, hidle1⟩, hqueue, hlive⟩ :=
    along_sampleRun {} 2 soleSource.1 soleSource.2
      (fun σ _ => (σ.nmos.sm.sources.find? 1).all StreamInfo.enabled)
      (fun σ => ((σ.threads.ops 0).isEmpty ∧ (σ.threads.ops 1).isEmpty) ∧
        σ.nmos.pendingEvents.isEmpty ∧ σ.nmos.sm.live .source 1 = true) (by omega) himp (by decide +kernel)
  exact ⟨sm, σ, hbefore, hrun, hlive, resources_mirror hbefore hlists hrun
    (settled_of_idle (List.isEmpty_iff.mp hqueue) (hquiet.idle hidle0 hidle1))⟩

/-- A source that is not in use has a sender when it was there before the NMOS manager, and
none when it came later, with the same session manager in the end. -/
theorem resources_differ : ∃ σ₁ σ₂ : System, σ₁.Reachable {} ∧ σ₂.Reachable {} ∧
    σ₁.nmos.sm = σ₂.nmos.sm ∧ (∀ t, σ₁.threads.ops t = []) ∧ (∀ t, σ₂.threads.ops t = []) ∧
    σ₁.nmos.pendingEvents = [] ∧ σ₂.nmos.pendingEvents = [] ∧
    σ₁.nmos.has .source 1 = true ∧ σ₂.nmos.has .source 1 = false := by
  let spare : Event := .request (.addSource {} spareSource)
  obtain ⟨σ₁, h₁, hreach₁, hidle₁, hqueue₁, hhas₁⟩ :=
    idle_sampleRun {} [spare] (turns 17 0 {}) (fun σ => σ.nmos.has .source 1 = true) (by decide) (by decide +kernel)
  obtain ⟨σ₂, h₂, hreach₂, hidle₂, hqueue₂, hhas₂⟩ :=
    idle_sampleRun {} [] (turns 8 0 {} ++ [.stream spare]) (fun σ => σ.nmos.has .source 1 = false)
      (by decide +kernel) (by decide +kernel)
  have hsm : (sampleRun {} [spare] (turns 17 0 {})).map (fun σ => σ.nmos.sm) =
      (sampleRun {} [] (turns 8 0 {} ++ [.stream spare])).map (fun σ => σ.nmos.sm) := rfl
  rw [h₁, h₂] at hsm
  exact ⟨σ₁, σ₂, hreach₁, hreach₂, Option.some.inj hsm, hidle₁, hidle₂, hqueue₁, hqueue₂, hhas₁, hhas₂⟩

end System
end Aes67Daemon
