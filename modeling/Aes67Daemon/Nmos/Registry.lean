import Aes67Daemon.Nmos.Activation
import Aes67Daemon.Nmos.Mirror
import Aes67Daemon.Nmos.Pushes

/-!
# The registry and the Node API

The worker pushes to the registry what it does to the resources, and an activation
does not.  What an activation changes reaches the registry if the worker is still to
push the resource for another reason: an event of its stream is queued, a full
registration is under way, or the activation itself adds the sink of the receiver
again, and the session manager tells of it.

## Main definitions

* `System.posted` — the registry when the worker has pushed what it has collected.
* `System.Awaited`, `System.Covered` — a push of a resource is still to come.
* `System.Synced` — every resource is in the registry as it is served, or a push of it
  is still to come.
* `System.Pushed` — the activations that keep it so.
-/
namespace Aes67Daemon

open Text

theorem Op.post_of_not_ofWorker {op : Op} (hop : op.ofWorker = false) (r : Registry) : op.post r = r := by
  cases op with
  | register | unregister => cases hop
  | _ => rfl

namespace System
variable {h : NmosHost} {σ σ' : System} {type : DocType} {id : UInt8} {t : ℕ} {e : NmosEnv} {op : Op}
  {rest : List Op}

/-- The registry when the worker has pushed what it has collected. -/
def posted (σ : System) : Registry := Op.posted (σ.threads.ops 0) σ.nmos.registry

/-- A push of a resource is still to come: there is an event of its stream in the queue, or
the worker goes on to push it. -/
def Awaited (type : DocType) (id : UInt8) (σ : System) : Prop :=
  (∃ k, type.kind? = some k ∧ σ.nmos.queued k id ≠ []) ∨
    σ.threads.Ahead fun op => op.awaits type id = true

/-- Or an activation goes on to add the sink of a receiver, and a push comes with that. -/
def Covered (type : DocType) (id : UInt8) (σ : System) : Prop :=
  σ.Awaited type id ∨ σ.threads.Ahead fun op => op.adds type id = true

/-- A resource is in the registry as it is served. -/
def Agrees (h : NmosHost) (type : DocType) (id : UInt8) (σ : System) : Prop :=
  σ.posted.content type (h.resourceId type id) = σ.nmos.served h type id

/-- What the registry has to do with what is served. -/
structure Synced (h : NmosHost) (σ : System) : Prop where
  /-- What a full registration writes it goes on to push. -/
  backed : ∀ op ∈ σ.threads.ops 0, op.snapshot = true → ∃ op' ∈ σ.threads.ops 0, op'.full = true
  present : ∀ op ∈ σ.threads.ops 0, op.Present σ.nmos
  /-- The registry has only resources of the node, ... -/
  foreign : ∀ type text, σ.posted.content type text ≠ none → ∃ id, text = h.resourceId type id
  /-- ... and only those that are served. -/
  known : ∀ type id, σ.posted.content type (h.resourceId type id) ≠ none →
    (σ.nmos.served h type id).isSome = true
  agrees : ∀ type id, σ.Agrees h type id ∨ σ.Covered type id

/-- An activation changes what is served of a resource only while a push of it is still to
come. -/
structure Pushed (h : NmosHost) (σ : System) (l : Label) : Prop where
  rebuilt : ∀ t e id src rest, l = .turn t e → σ.threads.ops t = .rebuildSender id src :: rest →
    ∀ sr, σ.nmos.senders.find? id = some sr →
      h.buildSenderJson sr.senderJson.version src sr.flowId sr.senderId sr.active.peerId = sr.senderJson ∨
        σ.Awaited .sender id
  promoted : ∀ t e id a sdp rest, l = .turn t e → σ.threads.ops t = .promoteReceiver id a sdp :: rest →
    ∀ rr, σ.nmos.receivers.find? id = some rr →
      a.activeSenderId = rr.active.peerId ∨ a.changesSink sdp = true ∨ σ.Covered .receiver id
  stored : ∀ t e id sink rest, l = .turn t e → σ.threads.ops t = .storeSink id sink :: rest →
    ∀ rr, σ.nmos.receivers.find? id = some rr →
      NmosManager.receiverJson h e { rr with sink := sink } = NmosManager.receiverJson h e rr ∨
        σ.Covered .receiver id
  /-- The sink that is added again gets as far as dropping the old one, unless the registry
  does not depend on it. -/
  connected : ∀ t e sink rest, l = .turn t e → σ.threads.ops t = .connect sink :: rest →
    (Request.addSink e.env sink).prepared h.host σ.nmos.sm ≠ none ∨ σ.Awaited .receiver sink.id ∨
      σ.Agrees h .receiver sink.id

/-! ## What a turn does -/

/-- The registry is pushed what the operation leaves. -/
theorem posted_turned (hord : σ.Orderly) (hops : σ.threads.ops t = op :: rest) :
    (σ.turned h t e op rest).posted = Op.posted (op.exec h e σ.nmos).1 σ.posted := by
  have hregistry : (σ.turned h t e op rest).nmos.registry = op.post σ.nmos.registry := Op.registry_exec op
  have hops' : (σ.turned h t e op rest).threads.ops 0 =
      if 0 = t then (op.exec h e σ.nmos).1 ++ rest else σ.threads.ops 0 := Pool.ops_turned 0
  rw [posted, posted, hregistry, hops']
  split
  · rename_i ht
    subst ht
    rw [hops, Op.posted_append]
    change Op.posted rest (Op.posted _ (op.post σ.nmos.registry)) =
      Op.posted _ (Op.posted rest (op.post σ.nmos.registry))
    cases hcollects : op.collects with
    | true =>
        obtain ⟨-, rfl, -⟩ := hord.alone hops (Op.final_of_collects hcollects)
        rfl
    | false => rw [Op.posted_eq_self (Op.post_exec hcollects), Op.posted_eq_self (Op.post_exec hcollects)]
  · rename_i ht
    have hworker : op.ofWorker = false := hord.others t (Ne.symm ht) op (by rw [hops]; exact List.mem_cons_self)
    have hcollects : op.collects = false := by
      rw [← Bool.not_eq_true]
      intro hcollects
      rw [Op.ofWorker_of_final (Op.final_of_collects hcollects)] at hworker
      cases hworker
    rw [Op.posted_eq_self (Op.post_exec hcollects), Op.post_of_not_ofWorker hworker]

/-- The thread that does what the worker does is the worker. -/
theorem Orderly.worker (hord : σ.Orderly) (hops : σ.threads.ops t = op :: rest) (hop : op.ofWorker = true) :
    t = 0 := by
  by_contra hne
  have hno := hord.others t hne op (by rw [hops]; exact List.mem_cons_self)
  rw [hop] at hno
  cases hno

/-- What the worker has to do after a turn. -/
theorem mem_ops_turned {op' : Op} (hop' : op' ∈ (σ.turned h t e op rest).threads.ops 0) :
    t = 0 ∧ (op' ∈ (op.exec h e σ.nmos).1 ∨ op' ∈ rest) ∨ t ≠ 0 ∧ op' ∈ σ.threads.ops 0 := by
  have hops' : (σ.turned h t e op rest).threads.ops 0 =
      if 0 = t then (op.exec h e σ.nmos).1 ++ rest else σ.threads.ops 0 := Pool.ops_turned 0
  rw [hops'] at hop'
  split at hop'
  · rename_i ht
    exact .inl ⟨ht.symm, List.mem_append.mp hop'⟩
  · rename_i ht
    exact .inr ⟨Ne.symm ht, hop'⟩

theorem backed_turned (H : σ.Synced h) (hord : σ.Orderly) (hops : σ.threads.ops t = op :: rest) :
    ∀ op₁ ∈ (σ.turned h t e op rest).threads.ops 0, op₁.snapshot = true →
      ∃ op₂ ∈ (σ.turned h t e op rest).threads.ops 0, op₂.full = true := by
  intro op₁ hop₁ hsnap
  have hops' : (σ.turned h t e op rest).threads.ops 0 =
      if 0 = t then (op.exec h e σ.nmos).1 ++ rest else σ.threads.ops 0 := Pool.ops_turned 0
  rcases mem_ops_turned hop₁ with ⟨rfl, hmem⟩ | ⟨ht, hmem⟩
  · rw [hops', if_pos rfl]
    -- the full registration is not what the turn did
    have hkept : ∀ op₁ ∈ op :: rest, op₁.snapshot = true → op.full = false →
        ∃ op₂ ∈ (op.exec h e σ.nmos).1 ++ rest, op₂.full = true := by
      intro op₁ hmem hsnap hno
      obtain ⟨op₂, hop₂, hfull⟩ := H.backed op₁ (hops ▸ hmem) hsnap
      rw [hops] at hop₂
      rcases List.mem_cons.mp hop₂ with rfl | hop₂
      · rw [hno] at hfull
        cases hfull
      · exact ⟨op₂, List.mem_append_right _ hop₂, hfull⟩
    rcases hmem with hmem | hmem
    · rcases Op.snapshot_exec op op₁ hmem hsnap with hop | rfl
      · exact hkept op List.mem_cons_self hop (Op.not_full_of_snapshot hop)
      · exact ⟨.collectAll, List.mem_append_left _ (by simp [Op.exec]), rfl⟩
    · refine hkept op₁ (List.mem_cons_of_mem _ hmem) hsnap ?_
      rw [← Bool.not_eq_true]
      intro hfull
      obtain ⟨-, hrest, -⟩ := hord.alone hops (Op.final_of_full hfull)
      rw [hrest] at hmem
      cases hmem
  · rw [hops', if_neg (Ne.symm ht)]
    exact H.backed op₁ hmem hsnap

theorem present_turned (H : σ.Synced h) (hord : σ.Orderly) (hops : σ.threads.ops t = op :: rest) :
    ∀ op₁ ∈ (σ.turned h t e op rest).threads.ops 0, op₁.Present (σ.turned h t e op rest).nmos := by
  intro op₁ hop₁
  rcases mem_ops_turned hop₁ with ⟨rfl, hmem | hmem⟩ | ⟨ht, hmem⟩
  · exact Op.present_exec op op₁ hmem
  · refine (H.present op₁ (by rw [hops]; exact List.mem_cons_of_mem _ hmem)).exec fun k id hwork => ?_
    obtain ⟨-, hrest, -⟩ := hord.alone hops (Op.final_of_erase hwork)
    rw [hrest] at hmem
    cases hmem
  · refine (H.present op₁ hmem).exec fun k id hwork => ht ?_
    exact hord.worker hops (Op.ofWorker_of_work hwork)

theorem foreign_turned (H : σ.Synced h) (hsound : σ.nmos.Sound h) (hord : σ.Orderly)
    (hops : σ.threads.ops t = op :: rest) (type : DocType) (text : Text)
    (hsome : (σ.turned h t e op rest).posted.content type text ≠ none) :
    ∃ id, text = h.resourceId type id := by
  rw [posted_turned hord hops] at hsome
  rcases Op.content_exec hsound op hsome with hold | hid
  · exact H.foreign type text hold
  · exact hid

theorem known_turned (hinj : Function.Injective2 h.makeUuid5) (H : σ.Synced h) (hsound : σ.nmos.Sound h)
    (hord : σ.Orderly) (hops : σ.threads.ops t = op :: rest) (type : DocType) (id : UInt8)
    (hsome : (σ.turned h t e op rest).posted.content type (h.resourceId type id) ≠ none) :
    ((σ.turned h t e op rest).nmos.served h type id).isSome = true := by
  rw [posted_turned hord hops] at hsome
  change ((op.exec h e σ.nmos).2.served h type id).isSome = true
  cases Op.reflects_exec (e := e) hsound hinj type id op with
  | same hserved hpost =>
      rw [hserved]
      exact H.known type id (hpost σ.posted ▸ hsome)
  | fresh hpost => exact Option.isSome_iff_ne_none.mpr (hpost σ.posted ▸ hsome)
  | written hpush hserved hpost => exact hserved
  | changed hop hkeep hpost =>
      rw [hkeep]
      exact H.known type id (hpost σ.posted ▸ hsome)

/-! ## What is awaited -/

/-- The queue keeps an event of a stream, or the worker turns to it. -/
theorem awaited_of_queued {k : Kind} (hk : type.kind? = some k) (hqueue : σ.nmos.queued k id ≠ []) :
    (σ.turned h t e op rest).Awaited type id := by
  by_cases hop : op = .nextEvent
  · subst hop
    cases hevents : σ.nmos.pendingEvents with
    | nil =>
        rw [NmosManager.queued, hevents] at hqueue
        exact absurd rfl hqueue
    | cons ev evs =>
        have hexec : Op.nextEvent.exec h e σ.nmos = (Op.handle ev, { σ.nmos with pendingEvents := evs }) := by
          rw [Op.exec, hevents]
        cases hnews : ev.news k id with
        | none =>
            refine .inl ⟨k, hk, ?_⟩
            change (Op.nextEvent.exec h e σ.nmos).2.queued k id ≠ []
            rw [NmosManager.queued, hevents, List.filterMap_cons, hnews] at hqueue
            rw [hexec]
            exact hqueue
        | some b =>
            obtain ⟨op', hop', hwork⟩ := handle_of_news hnews
            have hmem : op' ∈ (Op.nextEvent.exec h e σ.nmos).1 := by
              rw [hexec]
              exact hop'
            exact .inr (Pool.ahead_of_mem_exec hmem (Op.awaits_of_work hk hwork))
  · exact .inl ⟨k, hk, Op.queued_exec hop hqueue⟩

/-- What is awaited is still awaited, unless the turn does it. -/
theorem Awaited.turned (H : σ.Awaited type id) (hops : σ.threads.ops t = op :: rest)
    (hop : op.awaits type id = false) : (σ.turned h t e op rest).Awaited type id := by
  rcases H with ⟨k, hk, hqueue⟩ | hahead
  · exact awaited_of_queued hk hqueue
  · exact .inr (hahead.turned hops (by rw [hop]; exact Bool.false_ne_true))

theorem Covered.turned (H : σ.Covered type id) (hops : σ.threads.ops t = op :: rest)
    (hop : op.awaits type id = false) (hadds : op.adds type id = false) :
    (σ.turned h t e op rest).Covered type id := by
  rcases H with hawaited | hahead
  · exact .inl (hawaited.turned hops hop)
  · exact .inr (hahead.turned hops (by rw [hadds]; exact Bool.false_ne_true))

/-- An operation that leaves a resource and its place in the registry alone. -/
theorem agrees_turned (hord : σ.Orderly) (hops : σ.threads.ops t = op :: rest)
    (hserved : (op.exec h e σ.nmos).2.served h type id = σ.nmos.served h type id)
    (hpost : ∀ r, (Op.posted (op.exec h e σ.nmos).1 r).content type (h.resourceId type id) =
      r.content type (h.resourceId type id)) (H : σ.Agrees h type id) :
    (σ.turned h t e op rest).Agrees h type id := by
  change (σ.turned h t e op rest).posted.content type (h.resourceId type id) =
    (op.exec h e σ.nmos).2.served h type id
  rw [posted_turned hord hops, hpost, hserved]
  exact H

/-- A resource that is not served any more is not in the registry either. -/
theorem agrees_of_gone (hinj : Function.Injective2 h.makeUuid5) (H : σ.Synced h) (hsound : σ.nmos.Sound h)
    (hord : σ.Orderly) (hops : σ.threads.ops t = op :: rest)
    (hnone : (op.exec h e σ.nmos).2.served h type id = none) : (σ.turned h t e op rest).Agrees h type id := by
  have hposted : (σ.turned h t e op rest).posted.content type (h.resourceId type id) = none := by
    by_contra hsome
    have hserved : ((op.exec h e σ.nmos).2.served h type id).isSome = true :=
      known_turned hinj H hsound hord hops type id hsome
    rw [hnone] at hserved
    cases hserved
  exact hposted.trans hnone.symm

/-- **A push that is awaited comes**, or is still awaited. -/
theorem settles_turned (hinj : Function.Injective2 h.makeUuid5) (H : σ.Synced h) (hsound : σ.nmos.Sound h)
    (hord : σ.Orderly) (hheard : ∀ k, σ.Heard k id) (hops : σ.threads.ops t = op :: rest)
    (hop : op.awaits type id = true) :
    (σ.turned h t e op rest).Agrees h type id ∨ (σ.turned h t e op rest).Awaited type id := by
  have hmem : op ∈ σ.threads.ops t := by
    rw [hops]
    exact List.mem_cons_self
  have hworker : op.ofWorker = true := by
    cases op <;> first | rfl | cases hop
  have ht : t = 0 := hord.worker hops hworker
  subst ht
  cases Op.settles_exec (e := e) hsound hinj (H.present op hmem) hop with
  | awaits hnext =>
      obtain ⟨op', hop', hawaits⟩ := hnext
      exact .inr (.inr (Pool.ahead_of_mem_exec hop' hawaits))
  | fresh hpost =>
      refine .inl ?_
      change (σ.turned h 0 e op rest).posted.content type (h.resourceId type id) =
        (op.exec h e σ.nmos).2.served h type id
      rw [posted_turned hord hops, hpost]
  | gone hnone => exact .inl (agrees_of_gone hinj H hsound hord hops hnone)
  | @lost k hk hwork hnone =>
      -- the stream is not in use, so there is an event of it in the queue
      refine .inr (awaited_of_queued hk fun hnil => ?_)
      have hlive := (hheard k).pushed hnil ⟨0, op, hmem, hwork⟩
      rw [SessionManager.live, hnone] at hlive
      cases hlive

/-- When the sink of a receiver is not there, its removal is going to be pushed, or was. -/
theorem agrees_or_awaited_of_dead (hinj : Function.Injective2 h.makeUuid5) (H : σ.Synced h)
    (hsound : σ.nmos.Sound h) (hord : σ.Orderly) (hmirrored : σ.Mirrored .sink id)
    (hops : σ.threads.ops t = op :: rest) (hk : type.kind? = some .sink)
    (hdead : σ.nmos.sm.live .sink id = false) (hwork : op.work? = none)
    (hserved : (op.exec h e σ.nmos).2.served h type id = σ.nmos.served h type id) :
    (σ.turned h t e op rest).Agrees h type id ∨ (σ.turned h t e op rest).Awaited type id := by
  by_cases hqueue : σ.nmos.queued .sink id = []
  · cases hhas : σ.nmos.has .sink id with
    | false =>
        have hnone : (op.exec h e σ.nmos).2.served h type id = none :=
          hserved.trans (NmosManager.served_eq_none hk hhas)
        exact .inl (agrees_of_gone hinj H hsound hord hops hnone)
    | true =>
        rcases hmirrored.here hqueue hhas with hlive | hdoing
        · rw [hdead] at hlive
          cases hlive
        · have hstill : (σ.turned h t e op rest).Doing .erase .sink id :=
            Pool.Ahead.turned hdoing hops (by simp [hwork])
          obtain ⟨t', op', hop', herase⟩ := hstill
          exact .inr (.inr ⟨t', op', hop', Op.awaits_of_work (b := false) hk herase⟩)
  · exact .inr (awaited_of_queued hk hqueue)

/-- **A sink that is added again is pushed**, when it gets as far as dropping the old one. -/
theorem adds_turned (hinj : Function.Injective2 h.makeUuid5) (H : σ.Synced h) (hsound : σ.nmos.Sound h)
    (hord : σ.Orderly) (hmirrored : σ.Mirrored .sink id) (hpushed : σ.Pushed h (.turn t e))
    (hops : σ.threads.ops t = op :: rest) (hop : op.adds type id = true) :
    (σ.turned h t e op rest).Agrees h type id ∨ (σ.turned h t e op rest).Covered type id := by
  cases op with
  | readSink id' a sdp =>
      obtain ⟨hk, rfl⟩ : type.kind? = some .sink ∧ id = id' := by simpa [Op.adds, DocType.concerns] using hop
      cases hsink : σ.nmos.sm.sinks.find? id with
      | none =>
          have hdead : σ.nmos.sm.live .sink id = false := by rw [SessionManager.live_sink, hsink]; rfl
          have hserved : ((Op.readSink id a sdp).exec h e σ.nmos).2.served h type id = σ.nmos.served h type id := by
            simp only [Op.exec, SessionManager.getSink, hsink, Option.map_none]
          exact (agrees_or_awaited_of_dead hinj H hsound hord hmirrored hops hk hdead rfl hserved).imp_right .inl
      | some info =>
          have hmem : Op.connect (a.target sdp (SessionManager.getSink_ id info)) ∈
              ((Op.readSink id a sdp).exec h e σ.nmos).1 := by
            simp only [Op.exec, SessionManager.getSink, hsink, Option.map_some, List.mem_singleton]
          have hid : (SessionManager.getSink_ id info).id = id := rfl
          refine .inr (.inr (Pool.ahead_of_mem_exec hmem ?_))
          simp [Op.adds, DocType.concerns, hk, NmosManager.target_id, hid]
  | connect sink =>
      obtain ⟨hk, rfl⟩ : type.kind? = some .sink ∧ id = sink.id := by simpa [Op.adds, DocType.concerns] using hop
      have htype : type = .receiver := by
        cases type <;> first | rfl | cases hk
      subst htype
      rcases hpushed.connected t e sink rest rfl hops with hprep | hawaited | hagrees
      · cases hlive : σ.nmos.sm.live .sink sink.id with
        | false =>
            exact (agrees_or_awaited_of_dead hinj H hsound hord hmirrored hops hk hlive rfl rfl).imp_right .inl
        | true =>
            obtain ⟨ns, htold, hnews⟩ := SessionManager.addSink_drops hord.keyed hprep hlive
            refine .inr (.inl (.inl ⟨.sink, rfl, ?_⟩))
            change (σ.nmos.hear (σ.nmos.sm.addSink h.host e.env sink).2).queued .sink sink.id ≠ []
            rw [NmosManager.queued_hear htold]
            exact List.append_ne_nil_of_right_ne_nil _ hnews
      · exact .inr (.inl (hawaited.turned hops rfl))
      · exact .inl (agrees_turned hord hops rfl (fun _ => rfl) hagrees)
  | _ => cases hop

/-- **An activation that changes a resource** leaves a push of it to come. -/
theorem changes_turned (hord : σ.Orderly) (hpushed : σ.Pushed h (.turn t e)) (H : σ.Synced h)
    (hops : σ.threads.ops t = op :: rest) (hop : op.changes type id = true)
    (hpost : ∀ r, (Op.posted (op.exec h e σ.nmos).1 r).content type (h.resourceId type id) =
      r.content type (h.resourceId type id)) :
    (σ.turned h t e op rest).Agrees h type id ∨ (σ.turned h t e op rest).Covered type id := by
  have hawaits : op.awaits type id = false := by
    cases op <;> first | rfl | cases hop
  have hadds : op.adds type id = false := by
    cases op <;> first | rfl | cases hop
  have hstays : (op.exec h e σ.nmos).2.served h type id = σ.nmos.served h type id →
      (σ.turned h t e op rest).Agrees h type id ∨ (σ.turned h t e op rest).Covered type id := by
    intro hserved
    rcases H.agrees type id with hagrees | hcovered
    · exact .inl (agrees_turned hord hops hserved hpost hagrees)
    · exact .inr (hcovered.turned hops hawaits hadds)
  have hreceiver : ∀ {id' : UInt8}, type.concerns id .sink id' = true → type = .receiver ∧ id = id' := by
    intro id' hkey
    cases type <;> simp_all [DocType.concerns, DocType.kind?]
  cases op with
  | rebuildSender id' src =>
      obtain ⟨rfl, rfl⟩ : type = .sender ∧ id = id' := by simpa [Op.changes] using hop
      cases hsr : σ.nmos.senders.find? id with
      | none => exact hstays (by simp [NmosManager.served, Op.exec, NmosManager.rebuildSender, hsr])
      | some sr =>
          rcases hpushed.rebuilt t e id src rest rfl hops sr hsr with hsame | hawaited
          · refine hstays ?_
            have hcontent := congrArg (fun doc => (Doc.sender doc).content) hsame
            simp only [NmosManager.served, Op.exec, NmosManager.rebuildSender, SortedMap.find?_modify_self, hsr,
              Option.map_some]
            exact congrArg some hcontent
          · exact .inr (.inl (hawaited.turned hops hawaits))
  | promoteReceiver id' a sdp =>
      obtain ⟨rfl, rfl⟩ := hreceiver hop
      cases hrr : σ.nmos.receivers.find? id with
      | none =>
          refine hstays ?_
          have hid : σ.nmos.receivers.contains id = false := by simp [SortedMap.contains, hrr]
          simp only [Op.exec, hid, Bool.false_eq_true, if_false]
      | some rr =>
          have hid : σ.nmos.receivers.contains id = true := SortedMap.contains_eq_true.mpr ⟨rr, hrr⟩
          rcases hpushed.promoted t e id a sdp rest rfl hops rr hrr with hsame | hadds' | hcovered
          · refine hstays ?_
            simp only [NmosManager.served, Op.exec, hid, if_true, NmosManager.promoteReceiver,
              SortedMap.find?_modify_self, hrr, Option.map_some, NmosManager.receiverJson,
              ReceiverResources.promoted, hsame]
          · have hmem : Op.readSink id a sdp ∈ ((Op.promoteReceiver id a sdp).exec h e σ.nmos).1 := by
              simp [Op.exec, hid, hadds']
            refine .inr (.inr (Pool.ahead_of_mem_exec hmem ?_))
            simp [Op.adds, DocType.concerns, DocType.kind?]
          · exact .inr (hcovered.turned hops hawaits hadds)
  | storeSink id' sink =>
      obtain ⟨rfl, rfl⟩ := hreceiver hop
      cases hrr : σ.nmos.receivers.find? id with
      | none => exact hstays (by simp [NmosManager.served, Op.exec, NmosManager.storeSink, hrr])
      | some rr =>
          rcases hpushed.stored t e id sink rest rfl hops rr hrr with hsame | hcovered
          · refine hstays ?_
            have hcontent := congrArg (fun doc => (Doc.receiver doc).content) hsame
            simp only [NmosManager.served, Op.exec, NmosManager.storeSink, SortedMap.find?_modify_self, hrr,
              Option.map_some]
            exact congrArg some hcontent
          · exact .inr (hcovered.turned hops hawaits hadds)
  | _ => cases hop

theorem synced_turned (hinj : Function.Injective2 h.makeUuid5) (H : σ.Synced h) (hsound : σ.nmos.Sound h)
    (hord : σ.Orderly) (hmirrored : ∀ id, σ.Mirrored .sink id) (hheard : ∀ k id, σ.Heard k id)
    (hpushed : σ.Pushed h (.turn t e)) (hops : σ.threads.ops t = op :: rest) :
    (σ.turned h t e op rest).Synced h := by
  refine ⟨backed_turned H hord hops, present_turned H hord hops, foreign_turned H hsound hord hops,
    known_turned hinj H hsound hord hops, fun type id => ?_⟩
  cases Op.reflects_exec (e := e) hsound hinj type id op with
  | same hserved hpost =>
      rcases H.agrees type id with hagrees | hcovered
      · exact .inl (agrees_turned hord hops hserved hpost hagrees)
      · by_cases hawaits : op.awaits type id = true
        · exact (settles_turned hinj H hsound hord (fun k => hheard k id) hops hawaits).imp_right .inl
        · by_cases hadds : op.adds type id = true
          · exact adds_turned hinj H hsound hord (hmirrored id) hpushed hops hadds
          · exact .inr (hcovered.turned hops (Bool.not_eq_true _ ▸ hawaits) (Bool.not_eq_true _ ▸ hadds))
  | fresh hpost =>
      refine .inl ?_
      change (σ.turned h t e op rest).posted.content type (h.resourceId type id) =
        (op.exec h e σ.nmos).2.served h type id
      rw [posted_turned hord hops, hpost]
  | written hpush hserved hpost =>
      rcases hpush with ⟨op', hop', hawaits⟩ | hsnap
      · exact .inr (.inl (.inr (Pool.ahead_of_mem_exec hop' hawaits)))
      · have ht : t = 0 := hord.worker hops (Op.ofWorker_of_snapshot hsnap)
        obtain ⟨op', hop', hfull⟩ := H.backed op (by rw [← ht, hops]; exact List.mem_cons_self) hsnap
        have hahead : σ.threads.Ahead fun op => op.full = true := ⟨0, op', hop', hfull⟩
        have hstill : (σ.turned h t e op rest).threads.Ahead fun op => op.full = true :=
          hahead.turned hops (by rw [Op.not_full_of_snapshot hsnap]; exact Bool.false_ne_true)
        obtain ⟨t₁, op₁, hop₁, hfull₁⟩ := hstill
        exact .inr (.inl (.inr ⟨t₁, op₁, hop₁, Op.awaits_of_full hfull₁⟩))
  | changed hop hkeep hpost => exact changes_turned hord hpushed H hops hop hpost

/-! ## Runs -/

/-- More events in the queue change nothing else. -/
theorem synced_queue {s : NmosManager} (H : σ.Synced h) (hregistry : s.registry = σ.nmos.registry)
    (hserved : ∀ type id, s.served h type id = σ.nmos.served h type id)
    (hhas : ∀ k id, s.has k id = σ.nmos.has k id)
    (hqueue : ∀ k id, σ.nmos.queued k id ≠ [] → s.queued k id ≠ []) :
    Synced h { σ with threads := { σ.threads with shared := s } } := by
  have hposted : posted { σ with threads := { σ.threads with shared := s } } = σ.posted := by
    rw [posted, posted]
    exact congrArg _ hregistry
  refine ⟨H.backed, fun op hop => ?_, fun type text hsome => ?_, fun type id hsome => ?_, fun type id => ?_⟩
  · have hpresent := H.present op hop
    cases op with
    | collectSender id => exact (hhas .source id).trans hpresent
    | collectReceiver id => exact (hhas .sink id).trans hpresent
    | _ => trivial
  · exact H.foreign type text (hposted ▸ hsome)
  · exact (congrArg Option.isSome (hserved type id)).trans (H.known type id (hposted ▸ hsome))
  · refine (H.agrees type id).imp (fun hagrees => ?_) fun hcovered => ?_
    · rw [Agrees, hposted]
      exact hagrees.trans (hserved type id).symm
    · rcases hcovered with (⟨k, hk, hnews⟩ | hahead) | hahead
      · exact .inl (.inl ⟨k, hk, hqueue k id hnews⟩)
      · exact .inl (.inr hahead)
      · exact .inr hahead

/-- A thread that turns to something else. -/
theorem synced_started (H : σ.Synced h) (hstart : op.startsOn t = true) (hidle : σ.threads.ops t = []) :
    Synced h { σ with threads := σ.threads.started t op } := by
  have hops : ∀ t', (σ.threads.started t op).ops t' = if t' = t then [op] else σ.threads.ops t' :=
    Pool.ops_started
  have hmem : ∀ op' ∈ (σ.threads.started t op).ops 0, op' = op ∨ op' ∈ σ.threads.ops 0 := by
    intro op' hop'
    rw [hops] at hop'
    split at hop'
    · exact .inl (List.mem_singleton.mp hop')
    · exact .inr hop'
  have hposted : posted { σ with threads := σ.threads.started t op } = σ.posted := by
    rw [posted, posted]
    change Op.posted ((σ.threads.started t op).ops 0) σ.nmos.registry = _
    rw [hops]
    split
    · rename_i ht
      rw [ht, hidle]
      cases op <;> first | rfl | cases hstart
    · rfl
  refine ⟨fun op' hop' hsnap => ?_, fun op' hop' => ?_, fun type text hsome => ?_, fun type id hsome => ?_,
    fun type id => ?_⟩
  · rcases hmem op' hop' with rfl | hold
    · cases op' <;> first | cases hstart | cases hsnap
    · obtain ⟨op₁, hop₁, hfull⟩ := H.backed op' hold hsnap
      refine ⟨op₁, ?_, hfull⟩
      change op₁ ∈ (σ.threads.started t op).ops 0
      rw [hops, if_neg]
      · exact hop₁
      · intro ht
        rw [ht, hidle] at hop₁
        cases hop₁
  · rcases hmem op' hop' with rfl | hold
    · cases op' with
      | collectSender | collectReceiver => cases hstart
      | _ => trivial
    · exact H.present op' hold
  · exact H.foreign type text (hposted ▸ hsome)
  · exact H.known type id (hposted ▸ hsome)
  · refine (H.agrees type id).imp (fun hagrees => ?_) fun hcovered => ?_
    · rw [Agrees, hposted]
      exact hagrees
    · rcases hcovered with (hnews | hahead) | hahead
      · exact .inl (.inl hnews)
      · exact .inl (.inr (hahead.started hidle))
      · exact .inr (hahead.started hidle)

/-- **A step keeps the registry in step with the Node API.** -/
theorem synced_step {l : Label} (hinj : Function.Injective2 h.makeUuid5) (hreach : σ.Reachable h)
    (H : σ.Synced h) (hpushed : σ.Pushed h l) (hs : σ.step h l = some σ') : σ'.Synced h := by
  rcases step_cases hs with ⟨ev, sm, -, -, rfl⟩ | ⟨found, -, rfl⟩ | ⟨t, op, -, hstart, -, hidle, rfl⟩ |
    ⟨t, e, op, rest, rfl, -, hops, rfl⟩
  · refine synced_queue H rfl (fun type id => by cases type <;> rfl) (fun k id => by cases k <;> rfl) ?_
    intro k id hnews
    rw [NmosManager.queued, NmosManager.hear, List.filterMap_append]
    exact List.append_ne_nil_of_left_ne_nil hnews _
  · refine synced_queue H rfl (fun type id => by cases type <;> rfl) (fun k id => by cases k <;> rfl) ?_
    intro k id hnews
    rw [NmosManager.queued_discover]
    exact hnews
  · exact synced_started H hstart hidle
  · exact synced_turned hinj H (NmosManager.sound_touched hreach.touched) (hreach.mirrored 0).2.2
      (fun id => (hreach.mirrored id).1) hreach.heard hpushed hops

/-- At first the registry is empty, and a full registration is ahead. -/
theorem synced_boot {sm : SessionManager} {e₀ : NmosEnv} : (boot h e₀ sm).Synced h := by
  have hempty : ∀ type text, (boot h e₀ sm).posted.content type text = none := fun _ _ => rfl
  have hfull : Op.fullRegistration ∈ (boot h e₀ sm).threads.ops 0 := by simp [boot, Op.boot]
  refine ⟨fun _ _ _ => ⟨_, hfull, rfl⟩, fun op hop => ?_, fun type text hsome => ?_, fun type id hsome => ?_,
    fun type id => .inr (.inl (.inr ⟨0, _, hfull, rfl⟩))⟩
  · simp only [boot, if_true, Op.boot, List.mem_cons, List.not_mem_nil, or_false] at hop
    rcases hop with rfl | rfl | rfl | rfl <;> trivial
  · exact absurd (hempty type text) hsome
  · exact absurd (hempty type _) hsome

theorem synced_run {env : Env} {now : ℕ} {before : List Event} {sm : SessionManager} {e₀ : NmosEnv}
    {labels : List Label} (hinj : Function.Injective2 h.makeUuid5)
    (hbefore : run (SessionManager.occur h.host) (SessionManager.start h.host env now) before = some sm)
    (hpushed : Along (step h) (Pushed h) (boot h e₀ sm) labels)
    (hrun : run (step h) (boot h e₀ sm) labels = some σ) : σ.Reachable h ∧ σ.Synced h := by
  have hstep : ∀ (σ : System) l σ', σ.Reachable h ∧ σ.Synced h → σ.Pushed h l → σ.step h l = some σ' →
      σ'.Reachable h ∧ σ'.Synced h := by
    intro σ l σ' hinv hl hs
    have hone : run (step h) σ [l] = some σ' := by
      rw [run_cons, hs]
      rfl
    exact ⟨hinv.1.run hone, synced_step hinj hinv.1 hinv.2 hl hs⟩
  have hboot : (boot h e₀ sm).Reachable h ∧ (boot h e₀ sm).Synced h :=
    ⟨⟨env, now, before, sm, e₀, [], hbefore, rfl⟩, synced_boot⟩
  exact run_keeps hstep hboot hpushed hrun

/-! ## When nothing is left to do -/

/-- When no thread has anything to do and the queue is empty, no push is still to come. -/
theorem not_covered_of_idle (hqueue : σ.nmos.pendingEvents = []) (hidle : ∀ t, σ.threads.ops t = []) :
    ¬ σ.Covered type id := by
  have hnone : ∀ p : Op → Prop, ¬ σ.threads.Ahead p := by
    rintro p ⟨t, op, hop, -⟩
    rw [hidle] at hop
    cases hop
  rintro ((⟨k, -, hnews⟩ | hahead) | hahead)
  · rw [NmosManager.queued, hqueue] at hnews
    exact hnews rfl
  · exact hnone _ hahead
  · exact hnone _ hahead

/-- **The registry mirrors the Node API.**  When no thread has anything to do and the queue is
empty, the registry has exactly the resources the Node API serves, with the same content, in
every run in which an activation changes a resource only while a push of it is still to come. -/
theorem registry_mirrors (hinj : Function.Injective2 h.makeUuid5) {env : Env} {now : ℕ}
    {before : List Event} {sm : SessionManager} {e₀ : NmosEnv} {labels : List Label}
    (hbefore : run (SessionManager.occur h.host) (SessionManager.start h.host env now) before = some sm)
    (hpushed : Along (step h) (Pushed h) (boot h e₀ sm) labels)
    (hrun : run (step h) (boot h e₀ sm) labels = some σ)
    (hqueue : σ.nmos.pendingEvents = []) (hidle : ∀ t, σ.threads.ops t = [])
    (e : NmosEnv) (type : DocType) (id : Text) :
    σ.nmos.registry.content type id =
      ((σ.nmos.docs h e).find? fun doc => doc.type = type ∧ doc.id = id).map Doc.content := by
  obtain ⟨hreach, H⟩ := synced_run hinj hbefore hpushed hrun
  have hsound : σ.nmos.Sound h := NmosManager.sound_touched hreach.touched
  have hposted : σ.posted = σ.nmos.registry := by
    rw [posted, hidle]
    rfl
  have hagrees : ∀ id, σ.nmos.registry.content type (h.resourceId type id) = σ.nmos.served h type id := by
    intro id
    rw [← hposted]
    exact (H.agrees type id).resolve_right (not_covered_of_idle hqueue hidle)
  cases hfind : (σ.nmos.docs h e).find? fun doc => doc.type = type ∧ doc.id = id with
  | some doc =>
      have hkey : doc.type = type ∧ doc.id = id := by simpa using List.find?_some hfind
      obtain ⟨rfl, rfl⟩ := hkey
      obtain ⟨id', hid, hserved⟩ := NmosManager.served_of_mem_docs hsound (List.mem_of_find?_eq_some hfind)
      rw [hid, hagrees, hserved]
      rfl
  | none =>
      by_contra hsome
      rw [← hposted] at hsome
      obtain ⟨id', rfl⟩ := H.foreign type id hsome
      obtain ⟨d, hserved⟩ := Option.isSome_iff_exists.mp (H.known type id' hsome)
      obtain ⟨doc, hdoc, htype, hid, -⟩ := NmosManager.mem_docs_of_served (e := e) hsound hserved
      have hno := List.find?_eq_none.mp hfind doc hdoc
      simp [htype, hid] at hno

/-- What `Pushed` asks for, where the queue says that a push is still to come. -/
def pushed (h : NmosHost) (σ : System) (l : Label) : Bool :=
  match l with
  | .turn t e =>
    match σ.threads.ops t with
    | .rebuildSender id _ :: _ => !(σ.nmos.queued .source id).isEmpty
    | .promoteReceiver _ a sdp :: _ => a.changesSink sdp
    | .storeSink id _ :: _ => !(σ.nmos.queued .sink id).isEmpty
    | .connect sink :: _ => ((Request.addSink e.env sink).prepared h.host σ.nmos.sm).isSome
    | _ => true
  | _ => true

theorem pushed_of_check {l : Label} (hcheck : σ.pushed h l = true) : σ.Pushed h l := by
  have hnews : ∀ {k : Kind} {id : UInt8}, (!(σ.nmos.queued k id).isEmpty) = true → σ.nmos.queued k id ≠ [] := by
    intro k id hsome
    simpa using hsome
  refine ⟨?_, ?_, ?_, ?_⟩
  · rintro t e id src rest rfl hops sr -
    simp only [pushed, hops] at hcheck
    exact .inr (.inl ⟨.source, rfl, hnews hcheck⟩)
  · rintro t e id a sdp rest rfl hops rr -
    simp only [pushed, hops] at hcheck
    exact .inr (.inl hcheck)
  · rintro t e id sink rest rfl hops rr -
    simp only [pushed, hops] at hcheck
    exact .inr (.inl (.inl ⟨.sink, rfl, hnews hcheck⟩))
  · rintro t e sink rest rfl hops
    simp only [pushed, hops] at hcheck
    exact .inl (Option.isSome_iff_ne_none.mp hcheck)

/-- A node whose ids are different. -/
def pairHost : NmosHost := { makeUuid5 := NmosManager.pairText }

/-- A receiver is connected, and the registry has it with its sender. -/
theorem registry_mirrors_connection : ∃ σ : System, σ.Reachable pairHost ∧
    ((σ.nmos.receivers.find? 1).map fun rr => rr.active.peerId) = some "s".toList ∧
    ∀ e type id, σ.nmos.registry.content type id =
      ((σ.nmos.docs pairHost e).find? fun doc => doc.type = type ∧ doc.id = id).map Doc.content := by
  obtain ⟨sm, σ, hbefore, hpushed, hrun, hquiet, ⟨hidle0, hidle1⟩, hqueue, hpeer⟩ :=
    along_sampleRun pairHost 2 (soleSink (SessionManager.versionSdp "1".toList)).1
      ((soleSink (SessionManager.versionSdp "1".toList)).2 ++ NmosManager.connection "s".toList ++
        NmosManager.handling)
      (pushed pairHost) (fun σ => ((σ.threads.ops 0).isEmpty ∧ (σ.threads.ops 1).isEmpty) ∧
        σ.nmos.pendingEvents.isEmpty ∧
        ((σ.nmos.receivers.find? 1).map fun rr => rr.active.peerId) = some "s".toList) (by omega)
      (fun _ _ _ hcheck => pushed_of_check hcheck) (by decide +kernel)
  exact ⟨σ, ⟨{}, 0, _, sm, {}, _, hbefore, hrun⟩, hpeer,
    registry_mirrors NmosManager.pairText_injective hbefore hpushed hrun (List.isEmpty_iff.mp hqueue)
      (hquiet.idle hidle0 hidle1)⟩

/-- The Node API serves a sender with the receiver it was given, and the registry has it with
none. -/
theorem registry_differs : ∃ σ : System, σ.Reachable pairHost ∧ (∀ t, σ.threads.ops t = []) ∧
    σ.nmos.pendingEvents = [] ∧
    σ.nmos.registry.content .sender (pairHost.resourceId .sender 1) ≠
      ((σ.nmos.docs pairHost {}).find? fun doc => doc.type = .sender ∧
        doc.id = pairHost.resourceId .sender 1).map Doc.content := by
  obtain ⟨σ, -, hreach, hidle, hqueue, hdiffers⟩ := idle_sampleRun pairHost soleSource.1
    (soleSource.2 ++ [.start 1 (.patchSender 1 (activateNow { peerId := some "r".toList }))] ++ turns 5 1 {})
    (fun σ => σ.nmos.registry.content .sender (pairHost.resourceId .sender 1) ≠
      ((σ.nmos.docs pairHost {}).find? fun doc => doc.type = .sender ∧
        doc.id = pairHost.resourceId .sender 1).map Doc.content) (by decide) (by decide +kernel)
  exact ⟨σ, hreach, hidle, hqueue, hdiffers⟩

end System
end Aes67Daemon
