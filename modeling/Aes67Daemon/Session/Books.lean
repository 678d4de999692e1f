import Aes67Daemon.Lib.Run
import Aes67Daemon.Session.SdpFrame
import Aes67Daemon.Session.Streams

/-!
# The books of the session manager

A stream that is in use is on record in four places: its table, the index of its
name, the driver, and the group memberships.  `Books` keeps these four and
forgets everything else, sources and sinks alike.  On the books a request does
one of a few things: it leaves them alone, strikes the entry of a stream, or
strikes the previous entry, if there is one, and enters a new one in its place.

`serve_books` says so of the four requests, whatever the driver and the network
answer.  Every invariant of the books is derived from it.

## Main definitions

* `Books` — tables, name indices, driver and memberships.
* `Books.strike`, `Books.enter` — what happens to them.
* `Request.Stores` — the record a request puts into its table.
* `Books.Serve` — what a request can do to the books.
-/
namespace Aes67Daemon

/-! ## Books -/

/-- The kinds of streams. -/
inductive Kind
  | source
  | sink
  deriving DecidableEq

/-- Whether a stored stream is in use: a source can be disabled. -/
def Kind.live : Kind → StreamInfo → Bool
  | .source, info => info.enabled
  | .sink, _ => true

/-- Where the streams in use are on record. -/
@[ext] structure Books where
  table : Kind → SortedMap UInt8 StreamInfo
  names : Kind → SortedMap Text UInt8
  driver : Driver
  igmp : Legs Igmp

namespace Books

/-- Take a stored stream off the books. -/
def strike (host : Host) (env : Env) (k : Kind) (id : UInt8) (old : StreamInfo) (b : Books) :
    Books :=
  { table := Function.update b.table k ((b.table k).erase id)
    names :=
      if k.live old then Function.update b.names k ((b.names k).erase old.stream.leg0.cName)
      else b.names
    driver := if k.live old then SessionManager.dropLegs env old b.driver else b.driver
    igmp := if k.live old then SessionManager.leaveLegs host env old b.igmp else b.igmp }

/-- Take whatever is stored under an id off the books. -/
def vacate (host : Host) (env : Env) (k : Kind) (id : UInt8) (b : Books) : Books :=
  match (b.table k).find? id with
  | none => b
  | some old => b.strike host env k id old

/-- Nothing is stored under an id that was vacated. -/
theorem find?_vacate {host : Host} {env : Env} {k : Kind} {id : UInt8} {b : Books} :
    ((b.vacate host env k id).table k).find? id = none := by
  unfold Books.vacate
  split
  · assumption
  · simp [Books.strike]

/-- Enter a stream whose legs the driver has registered. -/
def enter (host : Host) (env : Env) (k : Kind) (id : UInt8) (name : Text) (info : StreamInfo)
    (b : Books) : Books :=
  { b with
    table := Function.update b.table k ((b.table k).insert id info)
    names := if k.live info then Function.update b.names k ((b.names k).insert name id)
      else b.names
    igmp := if k.live info then SessionManager.joinLegs host env info b.igmp else b.igmp }

end Books

namespace SessionManager

/-- The books of a session manager. -/
def books (s : SessionManager) : Books :=
  { table := fun
      | .source => s.sources
      | .sink => s.sinks
    names := fun
      | .source => s.sourceNames
      | .sink => s.sinkNames
    driver := s.driver
    igmp := s.igmp }

end SessionManager

/-! ## Requests -/

namespace Request

open SessionManager

/-- The kind of stream a request is about. -/
def kind : Request → Kind
  | .addSource _ _ | .removeSource _ _ => .source
  | .addSink _ _ | .removeSink _ _ => .sink

/-- The id of the stream a request is about. -/
def id : Request → UInt8
  | .addSource _ source => source.id
  | .addSink _ sink => sink.id
  | .removeSource _ id | .removeSink _ id => id.toUInt8

/-- The name a request gives its stream. -/
def name : Request → Text
  | .addSource _ source => source.name
  | .addSink _ sink => sink.name
  | .removeSource _ _ | .removeSink _ _ => []

/-- What a request has prepared when it looks at the stored streams; `none` when
it ends before. -/
def prepared (host : Host) (s : SessionManager) : Request → Option StreamInfo
  | .addSource env source =>
    if streamIdMax < source.id.toNat ∨ host.routingSize < source.map.length then none
    else (sourceStream host env source s.driver.sampleRate).map fun stream =>
      sourceInfo host source stream s.gSessionVersion
  | .addSink env sink =>
    if streamIdMax < sink.id.toNat then none else (preparedSink host env s.ptp sink).toOption
  | .removeSource _ _ | .removeSink _ _ => none

/-- The secondary leg a request wants to register along with the primary one. -/
def secondLeg (host : Host) (info : StreamInfo) : Request → Option TRTPStreamInfo
  | .addSource env source =>
    (if source.useSecondary then env.secondaryIp host else none).map fun ip =>
      sourceStreamSec host source ip info.stream.leg0
  | .addSink env _ =>
    (if info.st20227Enabled then env.secondaryIp host else none).map fun ip =>
      sinkStreamSec host env ip info.stream.leg1
  | .removeSource _ _ | .removeSink _ _ => none

/-- The handle a request removes again when the secondary leg is refused: a
source goes through the iterator to the previous entry. -/
def undoHandle (previous : Option StreamInfo) (h0 : Handle) : Request → Option Handle
  | .addSource _ _ => previous.map fun old => old.handle.leg0
  | .addSink _ _ | .removeSource _ _ | .removeSink _ _ => some h0

/-- Whether a request removes a stream. -/
def removes : Request → Bool
  | .addSource _ _ | .addSink _ _ => false
  | .removeSource _ _ | .removeSink _ _ => true

end Request

/-- The record of a stream registered with its primary leg only. -/
def StreamInfo.single (info : StreamInfo) (h0 : Handle) : StreamInfo :=
  { info with handle.leg0 := h0, st20227Enabled := false }

/-- The record of a stream registered with both legs. -/
def StreamInfo.dual (info : StreamInfo) (leg1 : TRTPStreamInfo) (h0 h1 : Handle) : StreamInfo :=
  { info with stream.leg1 := leg1, handle := ⟨h0, h1⟩, st20227Enabled := true }

theorem Kind.live_single {k : Kind} {info : StreamInfo} {h0 : Handle} :
    k.live (info.single h0) = k.live info := by
  cases k <;> rfl

theorem Kind.live_dual {k : Kind} {info : StreamInfo} {leg1 : TRTPStreamInfo} {h0 h1 : Handle} :
    k.live (info.dual leg1 h0 h1) = k.live info := by
  cases k <;> rfl

/-! ## What a request does to the books -/

namespace Books

/-- How the prepared record of a request gets onto the books `b`, from which the
previous entry has been struck. -/
inductive Admit (host : Host) (r : Request) (info : StreamInfo) (previous : Option StreamInfo)
    (b : Books) : Ret → Books → Prop
  /-- A stream that is not in use is only stored. -/
  | placed (hlive : r.kind.live info = false) :
    Admit host r info previous b .ok (b.enter host r.env r.kind r.id r.name info)
  /-- The driver refuses the primary leg. -/
  | refused {e : ErrorCode} (hlive : r.kind.live info = true)
      (hfirst : ¬ b.driver.accepts r.env.replies.addFirst) :
    Admit host r info previous b (.error e) b
  /-- The driver refuses the secondary leg, and one handle is removed again. -/
  | undone {e : ErrorCode} {h0 h : Handle} {leg1 : TRTPStreamInfo}
      (hlive : r.kind.live info = true)
      (hfirst : r.env.replies.addFirst = .ok h0) (hfresh : b.driver.fresh h0)
      (hleg1 : r.secondLeg host info = some leg1)
      (hsecond : ¬ (b.driver.hold h0 info.stream.leg0).accepts r.env.replies.addSecond)
      (hundo : r.undoHandle previous h0 = some h) :
    Admit host r info previous b (.error e)
      { b with driver := ((b.driver.hold h0 info.stream.leg0).removeRtpStream
          r.env.replies.rollback h).2 }
  /-- The primary leg is registered, and there is no other. -/
  | single {h0 : Handle} (hlive : r.kind.live info = true)
      (hfirst : r.env.replies.addFirst = .ok h0) (hfresh : b.driver.fresh h0)
      (hleg1 : r.secondLeg host info = none) :
    Admit host r info previous b .ok
      ({ b with driver := b.driver.hold h0 info.stream.leg0 }.enter host r.env r.kind r.id r.name
        (info.single h0))
  /-- Both legs are registered. -/
  | dual {h0 h1 : Handle} {leg1 : TRTPStreamInfo} (hlive : r.kind.live info = true)
      (hfirst : r.env.replies.addFirst = .ok h0) (hfresh : b.driver.fresh h0)
      (hleg1 : r.secondLeg host info = some leg1)
      (hsecond : r.env.replies.addSecond = .ok h1)
      (hfresh1 : (b.driver.hold h0 info.stream.leg0).fresh h1) :
    Admit host r info previous b .ok
      ({ b with driver := (b.driver.hold h0 info.stream.leg0).hold h1 leg1 }.enter host r.env
        r.kind r.id r.name (info.dual leg1 h0 h1))

/-- What a request can do to the books, and how it then ends. -/
inductive Serve (host : Host) (s : SessionManager) (r : Request) : Ret → Books → Prop
  /-- The request is turned down before it touches anything. -/
  | unchanged {ret : Ret} (hret : ret ≠ .ok)
      (hpre : ∀ info, r.prepared host s = some info →
        (s.books.table r.kind).find? r.id = none ∧ (s.books.names r.kind).contains r.name = true) :
    Serve host s r ret s.books
  /-- The driver does not let go of a stream that is to be removed. -/
  | removalFailed {old : StreamInfo} {e : ErrorCode} (hr : r.removes = true)
      (hold : (s.books.table r.kind).find? r.id = some old) (hlive : r.kind.live old = true)
      (hdrop : (SessionManager.removeLegs r.env old s.driver).1 = some e) :
    Serve host s r (.error e)
      { s.books with driver := (SessionManager.removeLegs r.env old s.driver).2 }
  | removed {old : StreamInfo} (hr : r.removes = true)
      (hold : (s.books.table r.kind).find? r.id = some old) :
    Serve host s r .ok (s.books.strike host r.env r.kind r.id old)
  /-- The previous entry makes room for the new one. -/
  | admitted {info : StreamInfo} {ret : Ret} {b : Books}
      (hprep : r.prepared host s = some info)
      (hname : (s.books.table r.kind).find? r.id = none → (s.books.names r.kind).find? r.name = none)
      (hbooks : Admit host r info ((s.books.table r.kind).find? r.id)
        (s.books.vacate host r.env r.kind r.id) ret b) :
    Serve host s r ret b

end Books

/-- A request gets its primary leg registered and its secondary leg refused. -/
structure Request.LosesSecondLeg (host : Host) (s : SessionManager) (r : Request)
    (info : StreamInfo) (h0 : Handle) (leg1 : TRTPStreamInfo) : Prop where
  prepared : r.prepared host s = some info
  name : (s.books.table r.kind).find? r.id = none → (s.books.names r.kind).find? r.name = none
  live : r.kind.live info = true
  first : r.env.replies.addFirst = .ok h0
  fresh : (s.books.vacate host r.env r.kind r.id).driver.fresh h0
  leg1 : r.secondLeg host info = some leg1
  second : ¬ ((s.books.vacate host r.env r.kind r.id).driver.hold h0 info.stream.leg0).accepts
    r.env.replies.addSecond

/-- A request gets all the legs it wants registered. -/
structure Request.Registers (host : Host) (s : SessionManager) (r : Request)
    (info : StreamInfo) : Prop where
  prepared : r.prepared host s = some info
  name : (s.books.table r.kind).find? r.id = none → (s.books.names r.kind).find? r.name = none
  live : r.kind.live info = true
  first : (s.books.vacate host r.env r.kind r.id).driver.accepts r.env.replies.addFirst
  second : ∀ h0 leg1, r.env.replies.addFirst = .ok h0 → r.secondLeg host info = some leg1 →
    ((s.books.vacate host r.env r.kind r.id).driver.hold h0 info.stream.leg0).accepts
      r.env.replies.addSecond

section
variable {host : Host} {s : SessionManager} {r : Request} {info : StreamInfo} {h0 h1 : Handle}

theorem Request.registers_single (hprep : r.prepared host s = some info)
    (hname : (s.books.table r.kind).find? r.id = none → (s.books.names r.kind).find? r.name = none)
    (hlive : r.kind.live info = true) (hfirst : r.env.replies.addFirst = .ok h0)
    (hfresh : (s.books.vacate host r.env r.kind r.id).driver.fresh h0)
    (hleg1 : r.secondLeg host info = none) : r.Registers host s info where
  prepared := hprep
  name := hname
  live := hlive
  first := by rw [hfirst]; exact hfresh
  second _ _ _ hsome := absurd (hleg1.symm.trans hsome) (by simp)

theorem Request.registers_dual (hprep : r.prepared host s = some info)
    (hname : (s.books.table r.kind).find? r.id = none → (s.books.names r.kind).find? r.name = none)
    (hlive : r.kind.live info = true) (hfirst : r.env.replies.addFirst = .ok h0)
    (hfresh : (s.books.vacate host r.env r.kind r.id).driver.fresh h0)
    (hsecond : r.env.replies.addSecond = .ok h1)
    (hfresh1 : ((s.books.vacate host r.env r.kind r.id).driver.hold h0 info.stream.leg0).fresh h1) :
    r.Registers host s info where
  prepared := hprep
  name := hname
  live := hlive
  first := by rw [hfirst]; exact hfresh
  second _ _ hfirst' _ := by
    obtain rfl := Except.ok.inj (hfirst.symm.trans hfirst')
    rw [hsecond]; exact hfresh1

end

/-- A request that loses its secondary leg has a handle to remove: the iterator
of a source is not past the end. -/
def Request.Defined (host : Host) (s : SessionManager) (r : Request) : Prop :=
  ∀ info h0 leg1, r.LosesSecondLeg host s info h0 leg1 →
    (r.undoHandle ((s.books.table r.kind).find? r.id) h0).isSome

namespace SessionManager

@[simp] theorem books_source (s : SessionManager) : s.books.table .source = s.sources := rfl
@[simp] theorem books_sink (s : SessionManager) : s.books.table .sink = s.sinks := rfl
@[simp] theorem books_sourceNames (s : SessionManager) : s.books.names .source = s.sourceNames := rfl
@[simp] theorem books_sinkNames (s : SessionManager) : s.books.names .sink = s.sinkNames := rfl
@[simp] theorem books_driver (s : SessionManager) : s.books.driver = s.driver := rfl
@[simp] theorem books_igmp (s : SessionManager) : s.books.igmp = s.igmp := rfl

/-- A checked removal that succeeds has removed what an unchecked one removes. -/
theorem removeLegs_eq_none {env : Env} {info : StreamInfo} {d d' : Driver}
    (h : removeLegs env info d = (none, d')) : d' = dropLegs env info d := by
  unfold removeLegs at h
  unfold dropLegs
  cases hr : d.removeRtpStream env.replies.dropFirst info.handle.leg0 with
  | mk ret d₁ =>
      rw [hr] at h
      cases ret with
      | some e => simp at h
      | none =>
          cases hs : info.st20227Enabled
          · simpa [hs, eq_comm] using h
          · simp only [hs, Option.isNone_none, and_self, if_true] at h
            simp [h]

/-! ## The requests on the books -/

section
variable {host : Host} {env : Env}

/-- Storing a source enters it, whatever was stored under its id before. -/
theorem books_setSource (source : StreamSource) (info : StreamInfo) (d : Driver)
    (s : SessionManager) (hlive : info.enabled = true) :
    (({ s with driver := d }.onAddSource host env source info).setSource source.id info).books =
      { (s.eraseSource source.id).books with driver := d }.enter host env .source source.id
        source.name info := by
  apply Books.ext
  · funext k
    cases k <;> simp [books, Books.enter, onAddSource, notify, setSource, eraseSource]
  · funext k
    cases k <;> simp [books, Books.enter, onAddSource, notify, setSource, eraseSource, hlive,
      Kind.live]
  · rfl
  · simp [books, Books.enter, onAddSource, notify, setSource, eraseSource, hlive, Kind.live]

/-- Storing a sink enters it, whatever was stored under its id before. -/
theorem books_setSink (sink : StreamSink) (info : StreamInfo) (d : Driver) (s : SessionManager) :
    (({ s with driver := d }.onAddSink host env sink info).setSink sink.id info).books =
      { (s.eraseSink sink.id).books with driver := d }.enter host env .sink sink.id sink.name
        info := by
  apply Books.ext
  · funext k
    cases k <;> simp [books, Books.enter, onAddSink, notify, setSink, eraseSink]
  · funext k
    cases k <;> simp [books, Books.enter, onAddSink, notify, setSink, eraseSink, Kind.live]
  · rfl
  · simp [books, Books.enter, onAddSink, notify, setSink, eraseSink, Kind.live]

variable (host env) in
/-- A source that is taken out and erased is struck. -/
theorem books_dropSource (id : UInt8) (old : StreamInfo) (s : SessionManager) :
    ((s.dropSource host env old).eraseSource id).books = s.books.strike host env .source id old := by
  apply Books.ext
  · funext k
    cases k <;> by_cases h : old.enabled <;>
      simp [books, Books.strike, dropSource, onRemoveSource, notify, eraseSource, h]
  · funext k
    cases k <;> by_cases h : old.enabled <;>
      simp [books, Books.strike, dropSource, onRemoveSource, notify, eraseSource, h, Kind.live]
  · by_cases h : old.enabled <;>
      simp [books, Books.strike, dropSource, onRemoveSource, notify, eraseSource, h, Kind.live]
  · by_cases h : old.enabled <;>
      simp [books, Books.strike, dropSource, onRemoveSource, notify, eraseSource, h, Kind.live]

variable (host env) in
/-- A sink that is taken out and erased is struck. -/
theorem books_dropSink (id : UInt8) (old : StreamInfo) (s : SessionManager) :
    ((s.dropSink host env old).eraseSink id).books = s.books.strike host env .sink id old := by
  apply Books.ext
  · funext k
    cases k <;> simp [books, Books.strike, dropSink, onRemoveSink, notify, eraseSink]
  · funext k
    cases k <;> simp [books, Books.strike, dropSink, onRemoveSink, notify, eraseSink, Kind.live]
  · simp [books, Books.strike, dropSink, onRemoveSink, notify, eraseSink, Kind.live]
  · simp [books, Books.strike, dropSink, onRemoveSink, notify, eraseSink, Kind.live]

theorem eraseSource_of_absent {id : UInt8} {s : SessionManager} (h : s.sources.find? id = none) :
    s.eraseSource id = s := by
  simp [eraseSource, SortedMap.erase_of_find?_none h]

theorem eraseSink_of_absent {id : UInt8} {s : SessionManager} (h : s.sinks.find? id = none) :
    s.eraseSink id = s := by
  simp [eraseSink, SortedMap.erase_of_find?_none h]

/-- A failed source is erased when the iterator is valid, and was absent else. -/
theorem eraseSource_failed {it : Option StreamInfo} {id : UInt8} {s : SessionManager}
    (hit : it = none → s.sources.find? id = none) :
    (if it.isSome then s.eraseSource id else s) = s.eraseSource id := by
  cases it with
  | none => exact (eraseSource_of_absent (hit rfl)).symm
  | some old => rfl

theorem eraseSink_failed {it : Option StreamInfo} {id : UInt8} {s : SessionManager}
    (hit : it = none → s.sinks.find? id = none) :
    (if it.isSome then s.eraseSink id else s) = s.eraseSink id := by
  cases it with
  | none => exact (eraseSink_of_absent (hit rfl)).symm
  | some old => rfl

theorem accepts_of_addRtpStream_error {d : Driver} {reply : Except ErrorCode Handle}
    {info : TRTPStreamInfo} {e : ErrorCode} (h : d.addRtpStream reply info = (.error e, d)) :
    ¬ d.accepts reply := by
  cases reply with
  | error e => exact id
  | ok h0 => intro hf; simp [Driver.addRtpStream, show d.fresh h0 from hf] at h

/-- What the rest of `add_source` can do. -/
inductive SourceRegistered (host : Host) (env : Env) (source : StreamSource) (info : StreamInfo)
    (it : Option StreamInfo) (s : SessionManager) : Ret → SessionManager → Prop
  | placed (hdis : info.enabled = false) :
    SourceRegistered host env source info it s .ok (s.setSource source.id info)
  | refused {e : ErrorCode} (hen : info.enabled = true)
      (hfirst : ¬ s.driver.accepts env.replies.addFirst) :
    SourceRegistered host env source info it s (.error e)
      (if it.isSome then s.eraseSource source.id else s)
  | undone {e : ErrorCode} {h0 : Handle} {ip : UInt32} {old : StreamInfo}
      (hen : info.enabled = true) (hfirst : env.replies.addFirst = .ok h0)
      (hfresh : s.driver.fresh h0)
      (hsec : (if source.useSecondary then env.secondaryIp host else none) = some ip)
      (hsecond : ¬ (s.driver.hold h0 info.stream.leg0).accepts env.replies.addSecond)
      (hit : it = some old) :
    SourceRegistered host env source info it s (.error e)
      (eraseSource source.id { s with
        driver := ((s.driver.hold h0 info.stream.leg0).removeRtpStream env.replies.rollback
          old.handle.leg0).2 })
  | single {h0 : Handle} (hen : info.enabled = true) (hfirst : env.replies.addFirst = .ok h0)
      (hfresh : s.driver.fresh h0)
      (hsec : (if source.useSecondary then env.secondaryIp host else none) = none) :
    SourceRegistered host env source info it s .ok
      (({ s with driver := s.driver.hold h0 info.stream.leg0 }.onAddSource host env source
        (info.single h0)).setSource source.id (info.single h0))
  | dual {h0 h1 : Handle} {ip : UInt32} {leg1 : TRTPStreamInfo} (hen : info.enabled = true)
      (hfirst : env.replies.addFirst = .ok h0) (hfresh : s.driver.fresh h0)
      (hsec : (if source.useSecondary then env.secondaryIp host else none) = some ip)
      (hleg1 : leg1 = sourceStreamSec host source ip info.stream.leg0)
      (hsecond : env.replies.addSecond = .ok h1)
      (hfresh1 : (s.driver.hold h0 info.stream.leg0).fresh h1) :
    SourceRegistered host env source info it s .ok
      (({ s with driver := (s.driver.hold h0 info.stream.leg0).hold h1 leg1 }.onAddSource host env
        source (info.dual leg1 h0 h1)).setSource source.id (info.dual leg1 h0 h1))

theorem registerSource_cases {source : StreamSource} {info : StreamInfo} {it : Option StreamInfo}
    {s s' : SessionManager} {ret : Ret}
    (h : registerSource host env source info it s = some (ret, s')) :
    SourceRegistered host env source info it s ret s' := by
  unfold registerSource at h
  split at h
  case isFalse hdis =>
    simp only [Option.some.injEq, Prod.mk.injEq] at h
    obtain ⟨rfl, rfl⟩ := h
    exact .placed (Bool.eq_false_iff.mpr hdis)
  case isTrue hen =>
    rcases Driver.addRtpStream_cases s.driver env.replies.addFirst info.stream.leg0 with
      ⟨e, hadd⟩ | ⟨h0, hfirst, hfresh, hadd⟩
    · simp only [hadd, Option.some.injEq, Prod.mk.injEq] at h
      obtain ⟨rfl, rfl⟩ := h
      exact .refused hen (accepts_of_addRtpStream_error hadd)
    · simp only [hadd] at h
      cases hsec : (if source.useSecondary then env.secondaryIp host else none) with
      | none =>
          simp only [hsec, Option.some.injEq, Prod.mk.injEq] at h
          obtain ⟨rfl, rfl⟩ := h
          exact .single hen hfirst hfresh hsec
      | some ip =>
          simp only [hsec] at h
          rcases Driver.addRtpStream_cases (s.driver.hold h0 info.stream.leg0)
              env.replies.addSecond (sourceStreamSec host source ip info.stream.leg0) with
            ⟨e, hadd1⟩ | ⟨h1, hsecond, hfresh1, hadd1⟩
          · simp only [hadd1] at h
            cases it with
            | none => cases h
            | some old =>
                simp only [Option.some.injEq, Prod.mk.injEq] at h
                obtain ⟨rfl, rfl⟩ := h
                exact .undone hen hfirst hfresh hsec (accepts_of_addRtpStream_error hadd1) rfl
          · simp only [hadd1, Option.some.injEq, Prod.mk.injEq] at h
            obtain ⟨rfl, rfl⟩ := h
            exact .dual hen hfirst hfresh hsec rfl hsecond hfresh1

/-- The rest of `add_source` admits the prepared source. -/
theorem registerSource_books {source : StreamSource} {info : StreamInfo} {it : Option StreamInfo}
    {s s' : SessionManager} {ret : Ret} (hit : it = none → s.sources.find? source.id = none)
    (h : registerSource host env source info it s = some (ret, s')) :
    Books.Admit host (.addSource env source) info it (s.eraseSource source.id).books ret
      s'.books := by
  cases registerSource_cases h with
  | placed hdis =>
      have hlive : Kind.live .source info = false := hdis
      convert Books.Admit.placed (r := .addSource env source) hlive using 1
      apply Books.ext
      · funext k
        cases k <;> simp [books, Books.enter, setSource, eraseSource, Request.kind, Request.id]
      · simp [books, Books.enter, setSource, eraseSource, hlive, Request.kind]
      · rfl
      · simp [books, Books.enter, setSource, eraseSource, hlive, Request.kind]
  | refused hen hfirst =>
      rw [eraseSource_failed hit]
      exact .refused hen hfirst
  | undone hen hfirst hfresh hsec hsecond hit =>
      subst hit
      exact .undone hen hfirst hfresh (by simp [Request.secondLeg, hsec]; rfl) hsecond rfl
  | single hen hfirst hfresh hsec =>
      rw [books_setSource _ _ _ _ (by exact hen)]
      exact .single hen hfirst hfresh (by simp [Request.secondLeg, hsec])
  | dual hen hfirst hfresh hsec hleg1 hsecond hfresh1 =>
      rw [books_setSource _ _ _ _ (by exact hen)]
      exact .dual hen hfirst hfresh (by simp [Request.secondLeg, hsec, hleg1]) hsecond hfresh1

/-- What the rest of `add_sink` can do. -/
inductive SinkRegistered (host : Host) (env : Env) (sink : StreamSink) (info : StreamInfo)
    (it : Option StreamInfo) (s : SessionManager) : Ret → SessionManager → Prop
  | refused {e : ErrorCode} (hfirst : ¬ s.driver.accepts env.replies.addFirst) :
    SinkRegistered host env sink info it s (.error e)
      (if it.isSome then s.eraseSink sink.id else s)
  | undone {e : ErrorCode} {h0 : Handle} {ip : UInt32} {d : Driver}
      (hfirst : env.replies.addFirst = .ok h0) (hfresh : s.driver.fresh h0)
      (hsec : (if info.st20227Enabled then env.secondaryIp host else none) = some ip)
      (hsecond : ¬ (s.driver.hold h0 info.stream.leg0).accepts env.replies.addSecond)
      (hundo : ((s.driver.hold h0 info.stream.leg0).removeRtpStream env.replies.rollback h0).2 =
        d) :
    SinkRegistered host env sink info it s (.error e)
      (if it.isSome then eraseSink sink.id { s with driver := d } else { s with driver := d })
  | single {h0 : Handle} (hfirst : env.replies.addFirst = .ok h0) (hfresh : s.driver.fresh h0)
      (hsec : (if info.st20227Enabled then env.secondaryIp host else none) = none) :
    SinkRegistered host env sink info it s .ok
      (({ s with driver := s.driver.hold h0 info.stream.leg0 }.onAddSink host env sink
        (info.single h0)).setSink sink.id (info.single h0))
  | dual {h0 h1 : Handle} {ip : UInt32} {leg1 : TRTPStreamInfo}
      (hfirst : env.replies.addFirst = .ok h0) (hfresh : s.driver.fresh h0)
      (hsec : (if info.st20227Enabled then env.secondaryIp host else none) = some ip)
      (hleg1 : leg1 = sinkStreamSec host env ip info.stream.leg1)
      (hsecond : env.replies.addSecond = .ok h1)
      (hfresh1 : (s.driver.hold h0 info.stream.leg0).fresh h1) :
    SinkRegistered host env sink info it s .ok
      (({ s with driver := (s.driver.hold h0 info.stream.leg0).hold h1 leg1 }.onAddSink host env
        sink (info.dual leg1 h0 h1)).setSink sink.id (info.dual leg1 h0 h1))

theorem registerSink_cases {sink : StreamSink} {info : StreamInfo} {it : Option StreamInfo}
    {s s' : SessionManager} {ret : Ret} (h : registerSink host env sink info it s = (ret, s')) :
    SinkRegistered host env sink info it s ret s' := by
  unfold registerSink at h
  rcases Driver.addRtpStream_cases s.driver env.replies.addFirst info.stream.leg0 with
    ⟨e, hadd⟩ | ⟨h0, hfirst, hfresh, hadd⟩
  · simp only [hadd, Prod.mk.injEq] at h
    obtain ⟨rfl, rfl⟩ := h
    exact .refused (accepts_of_addRtpStream_error hadd)
  · simp only [hadd] at h
    cases hsec : (if info.st20227Enabled then env.secondaryIp host else none) with
    | none =>
        simp only [hsec, Prod.mk.injEq] at h
        obtain ⟨rfl, rfl⟩ := h
        exact .single hfirst hfresh hsec
    | some ip =>
        have hdual : info.st20227Enabled = true := by
          by_contra hd
          simp [hd] at hsec
        simp only [hsec] at h
        rcases Driver.addRtpStream_cases (s.driver.hold h0 info.stream.leg0)
            env.replies.addSecond (sinkStreamSec host env ip info.stream.leg1) with
          ⟨e, hadd1⟩ | ⟨h1, hsecond, hfresh1, hadd1⟩
        · simp only [hadd1, Prod.mk.injEq] at h
          obtain ⟨rfl, rfl⟩ := h
          exact .undone hfirst hfresh hsec (accepts_of_addRtpStream_error hadd1) rfl
        · simp only [hadd1, Prod.mk.injEq] at h
          obtain ⟨rfl, rfl⟩ := h
          have hinfo : { info with
              stream.leg1 := sinkStreamSec host env ip info.stream.leg1
              handle := ⟨h0, h1⟩ } = info.dual (sinkStreamSec host env ip info.stream.leg1) h0 h1 := by
            simp [StreamInfo.dual, ← hdual]
          rw [hinfo]
          exact .dual hfirst hfresh hsec rfl hsecond hfresh1

/-- The rest of `add_sink` admits the prepared sink. -/
theorem registerSink_books {sink : StreamSink} {info : StreamInfo} {it : Option StreamInfo}
    {s s' : SessionManager} {ret : Ret} (hit : it = none → s.sinks.find? sink.id = none)
    (h : registerSink host env sink info it s = (ret, s')) :
    Books.Admit host (.addSink env sink) info it (s.eraseSink sink.id).books ret s'.books := by
  cases registerSink_cases h with
  | refused hfirst =>
      rw [eraseSink_failed hit]
      exact .refused rfl hfirst
  | @undone _ _ _ d hfirst hfresh hsec hsecond hundo =>
      rw [eraseSink_failed (s := { s with driver := d }) hit]
      subst hundo
      exact .undone rfl hfirst hfresh (by simp [Request.secondLeg, hsec]; rfl) hsecond rfl
  | single hfirst hfresh hsec =>
      rw [books_setSink]
      exact .single rfl hfirst hfresh (by simp [Request.secondLeg, hsec])
  | dual hfirst hfresh hsec hleg1 hsecond hfresh1 =>
      rw [books_setSink]
      exact .dual rfl hfirst hfresh (by simp [Request.secondLeg, hsec, hleg1]) hsecond hfresh1

/-- Only a new source whose secondary leg is refused goes past the end. -/
theorem registerSource_eq_none {source : StreamSource} {info : StreamInfo} {it : Option StreamInfo}
    {s : SessionManager} (h : registerSource host env source info it s = none) :
    it = none ∧ info.enabled = true ∧ ∃ h0 leg1, env.replies.addFirst = .ok h0 ∧
      s.driver.fresh h0 ∧ (Request.addSource env source).secondLeg host info = some leg1 ∧
      ¬ (s.driver.hold h0 info.stream.leg0).accepts env.replies.addSecond := by
  unfold registerSource at h
  split at h
  case isFalse => cases h
  case isTrue hen =>
    rcases Driver.addRtpStream_cases s.driver env.replies.addFirst info.stream.leg0 with
      ⟨e, hadd⟩ | ⟨h0, hfirst, hfresh, hadd⟩
    · simp [hadd] at h
    · simp only [hadd] at h
      cases hsec : (if source.useSecondary then env.secondaryIp host else none) with
      | none => simp [hsec] at h
      | some ip =>
          simp only [hsec] at h
          rcases Driver.addRtpStream_cases (s.driver.hold h0 info.stream.leg0)
              env.replies.addSecond (sourceStreamSec host source ip info.stream.leg0) with
            ⟨e, hadd1⟩ | ⟨h1, hsecond, hfresh1, hadd1⟩
          · cases it with
            | none =>
                exact ⟨rfl, hen, h0, _, hfirst, hfresh, by simp [Request.secondLeg, hsec]; rfl,
                  accepts_of_addRtpStream_error hadd1⟩
            | some old => simp [hadd1] at h
          · simp [hadd1] at h

theorem vacate_of_find?_none {b : Books} {k : Kind} {id : UInt8}
    (h : (b.table k).find? id = none) : b.vacate host env k id = b := by
  simp [Books.vacate, h]

theorem vacate_of_find?_some {b : Books} {k : Kind} {id : UInt8} {old : StreamInfo}
    (h : (b.table k).find? id = some old) :
    b.vacate host env k id = b.strike host env k id old := by
  simp [Books.vacate, h]

theorem fetchSdp_ne_ok {url : Text} : fetchSdp host env url ≠ .error .ok := by
  unfold fetchSdp
  split
  · simp
  · split
    · simp
    · split
      · split <;> simp
      · split
        · split <;> simp
        · simp

theorem preparedSink_ne_ok {ptp : Ptp} {sink : StreamSink} :
    preparedSink host env ptp sink ≠ .error .ok := by
  unfold preparedSink
  split
  · simp
  split
  · rename_i r hr
    intro h
    cases h
    unfold sinkSdpText at hr
    split at hr
    · cases hr
    · exact fetchSdp_ne_ok hr
  · split <;> simp

theorem addSource_books {source : StreamSource} {s s' : SessionManager} {ret : Ret}
    (h : s.addSource host env source = some (ret, s')) :
    Books.Serve host s (.addSource env source) ret s'.books := by
  unfold addSource at h
  split at h
  · rename_i hid
    simp only [Option.some.injEq, Prod.mk.injEq] at h
    obtain ⟨rfl, rfl⟩ := h
    exact .unchanged (by simp) (by simp [Request.prepared, hid])
  split at h
  · rename_i hmap
    simp only [Option.some.injEq, Prod.mk.injEq] at h
    obtain ⟨rfl, rfl⟩ := h
    exact .unchanged (by simp) (by simp [Request.prepared, hmap])
  · rename_i hid hmap
    split at h
    · rename_i hmac
      simp only [Option.some.injEq, Prod.mk.injEq] at h
      obtain ⟨rfl, rfl⟩ := h
      exact .unchanged (by simp) (by simp [Request.prepared, hmac])
    · rename_i stream hstream
      have hprep : (Request.addSource env source).prepared host s =
          some (sourceInfo host source stream s.gSessionVersion) := by
        simp [Request.prepared, hid, hmap, hstream]
      simp only at h
      split at h
      · rename_i old hold
        have hbooks := registerSource_books (by simp) h
        rw [books_dropSource] at hbooks
        have hfind : (s.books.table .source).find? source.id = some old := hold
        refine .admitted hprep (fun hnone => absurd (hfind.symm.trans hnone) (by simp)) ?_
        rw [show (Request.addSource env source).kind = .source from rfl,
          show (Request.addSource env source).id = source.id from rfl, vacate_of_find?_some hfind,
          hfind]
        exact hbooks
      · rename_i hnone
        split at h
        · rename_i hname
          simp only [Option.some.injEq, Prod.mk.injEq] at h
          obtain ⟨rfl, rfl⟩ := h
          exact .unchanged (by simp) fun _ _ => ⟨hnone, hname⟩
        · rename_i hname
          let t : SessionManager := { s with gSessionVersion := s.gSessionVersion + 1 }
          have hbooks := registerSource_books (s := t) (fun _ => hnone) h
          rw [eraseSource_of_absent (s := t) hnone] at hbooks
          have hfind : (s.books.table .source).find? source.id = none := hnone
          refine .admitted hprep (fun _ => Option.not_isSome_iff_eq_none.mp hname) ?_
          rw [show (Request.addSource env source).kind = .source from rfl,
            show (Request.addSource env source).id = source.id from rfl,
            vacate_of_find?_none hfind, hfind]
          exact hbooks

theorem addSink_books {sink : StreamSink} {s s' : SessionManager} {ret : Ret}
    (h : s.addSink host env sink = (ret, s')) :
    Books.Serve host s (.addSink env sink) ret s'.books := by
  unfold addSink at h
  split at h
  · rename_i hid
    simp only [Prod.mk.injEq] at h
    obtain ⟨rfl, rfl⟩ := h
    exact .unchanged (by simp) (by simp [Request.prepared, hid])
  · rename_i hid
    split at h
    · rename_i r hr
      simp only [Prod.mk.injEq] at h
      obtain ⟨rfl, rfl⟩ := h
      refine .unchanged (fun hok => preparedSink_ne_ok (hok ▸ hr)) ?_
      simp [Request.prepared, hr, Except.toOption]
    · rename_i info hinfo
      have hprep : (Request.addSink env sink).prepared host s = some info := by
        simp [Request.prepared, hid, hinfo, Except.toOption]
      split at h
      · rename_i old hold
        have hbooks := registerSink_books (by simp) h
        rw [books_dropSink] at hbooks
        have hfind : (s.books.table .sink).find? sink.id = some old := hold
        refine .admitted hprep (fun hnone => absurd (hfind.symm.trans hnone) (by simp)) ?_
        rw [show (Request.addSink env sink).kind = .sink from rfl,
          show (Request.addSink env sink).id = sink.id from rfl, vacate_of_find?_some hfind, hfind]
        exact hbooks
      · rename_i hnone
        split at h
        · rename_i hname
          simp only [Prod.mk.injEq] at h
          obtain ⟨rfl, rfl⟩ := h
          exact .unchanged (by simp) fun _ _ => ⟨hnone, hname⟩
        · rename_i hname
          have hbooks := registerSink_books (fun _ => hnone) h
          rw [eraseSink_of_absent hnone] at hbooks
          have hfind : (s.books.table .sink).find? sink.id = none := hnone
          refine .admitted hprep (fun _ => Option.not_isSome_iff_eq_none.mp hname) ?_
          rw [show (Request.addSink env sink).kind = .sink from rfl,
            show (Request.addSink env sink).id = sink.id from rfl, vacate_of_find?_none hfind, hfind]
          exact hbooks

theorem removeSource_books {id : UInt32} {s s' : SessionManager} {ret : Ret}
    (h : s.removeSource host env id = (ret, s')) :
    Books.Serve host s (.removeSource env id) ret s'.books := by
  unfold removeSource at h
  split at h
  · simp only [Prod.mk.injEq] at h
    obtain ⟨rfl, rfl⟩ := h
    exact .unchanged (by simp) (by simp [Request.prepared])
  · split at h
    · simp only [Prod.mk.injEq] at h
      obtain ⟨rfl, rfl⟩ := h
      exact .unchanged (by simp) (by simp [Request.prepared])
    · rename_i old hold
      have hstrike := books_dropSource host env id.toUInt8 old s
      split at h
      · rename_i hen
        split at h
        · rename_i e d hd
          simp only [Prod.mk.injEq] at h
          obtain ⟨rfl, rfl⟩ := h
          have hserve : Books.Serve host s (.removeSource env id) (.error e)
              { s.books with driver := (removeLegs env old s.driver).2 } :=
            .removalFailed rfl hold hen (congrArg Prod.fst hd)
          simp only [hd] at hserve
          exact hserve
        · rename_i d hd
          simp only [Prod.mk.injEq] at h
          obtain ⟨rfl, rfl⟩ := h
          rw [removeLegs_eq_none hd]
          simp only [dropSource, hen, if_true] at hstrike
          rw [hstrike]
          exact .removed rfl hold
      · rename_i hdis
        simp only [Prod.mk.injEq] at h
        obtain ⟨rfl, rfl⟩ := h
        simp only [dropSource, hdis, Bool.false_eq_true, if_false] at hstrike
        rw [hstrike]
        exact .removed rfl hold

theorem removeSink_books {id : UInt32} {s s' : SessionManager} {ret : Ret}
    (h : s.removeSink host env id = (ret, s')) :
    Books.Serve host s (.removeSink env id) ret s'.books := by
  unfold removeSink at h
  split at h
  · simp only [Prod.mk.injEq] at h
    obtain ⟨rfl, rfl⟩ := h
    exact .unchanged (by simp) (by simp [Request.prepared])
  · split at h
    · simp only [Prod.mk.injEq] at h
      obtain ⟨rfl, rfl⟩ := h
      exact .unchanged (by simp) (by simp [Request.prepared])
    · rename_i old hold
      split at h
      · rename_i e d hd
        simp only [Prod.mk.injEq] at h
        obtain ⟨rfl, rfl⟩ := h
        have hserve : Books.Serve host s (.removeSink env id) (.error e)
            { s.books with driver := (removeLegs env old s.driver).2 } :=
          .removalFailed rfl hold rfl (congrArg Prod.fst hd)
        simp only [hd] at hserve
        exact hserve
      · rename_i d hd
        simp only [Prod.mk.injEq] at h
        obtain ⟨rfl, rfl⟩ := h
        rw [removeLegs_eq_none hd]
        have hstrike := books_dropSink host env id.toUInt8 old s
        simp only [dropSink] at hstrike
        rw [hstrike]
        exact .removed rfl hold

end

/-- **What a request does to the books.** -/
theorem serve_books {host : Host} {s s' : SessionManager} {r : Request} {ret : Ret}
    (h : s.serve host r = some (ret, s')) : Books.Serve host s r ret s'.books := by
  cases r with
  | addSource env source => exact addSource_books h
  | removeSource env id => exact removeSource_books (Option.some.inj h)
  | addSink env sink => exact addSink_books (Option.some.inj h)
  | removeSink env id => exact removeSink_books (Option.some.inj h)

/-- The records a request may store, once it has prepared one. -/
inductive Stored (host : Host) (r : Request) (info : StreamInfo) : StreamInfo → Prop
  | placed (hlive : r.kind.live info = false) : Stored host r info info
  | single (h0 : Handle) (hlive : r.kind.live info = true)
      (hleg1 : r.secondLeg host info = none) : Stored host r info (info.single h0)
  | dual (leg1 : TRTPStreamInfo) (h0 h1 : Handle) (hlive : r.kind.live info = true)
      (hleg1 : r.secondLeg host info = some leg1) : Stored host r info (info.dual leg1 h0 h1)

/-- **What is stored after a request** was stored before, or the request has just
prepared it. -/
theorem find?_of_serve {host : Host} {s : SessionManager} {r : Request} {ret : Ret} {b : Books}
    (h : Books.Serve host s r ret b) {k : Kind} {id : UInt8} {info' : StreamInfo}
    (hf : (b.table k).find? id = some info') :
    (s.books.table k).find? id = some info' ∨
      ∃ info, r.kind = k ∧ r.id = id ∧ r.prepared host s = some info ∧
        Stored host r info info' := by
  have hstrike : ∀ {env : Env} {old : StreamInfo} {info' : StreamInfo},
      ((s.books.strike host env r.kind r.id old).table k).find? id = some info' →
        (s.books.table k).find? id = some info' := by
    intro env old info' h
    by_cases hk : k = r.kind
    · subst hk
      simp only [Books.strike, Function.update_self, SortedMap.find?_erase] at h
      split at h
      · cases h
      · exact h
    · simpa only [Books.strike, Function.update_of_ne hk] using h
  have hvacate : ∀ {info' : StreamInfo},
      ((s.books.vacate host r.env r.kind r.id).table k).find? id = some info' →
        (s.books.table k).find? id = some info' := by
    intro info' h
    simp only [Books.vacate] at h
    split at h
    · exact h
    · exact hstrike h
  have henter : ∀ {c : Books} {info info' : StreamInfo},
      c.table = (s.books.vacate host r.env r.kind r.id).table →
      ((c.enter host r.env r.kind r.id r.name info).table k).find? id = some info' →
      (s.books.table k).find? id = some info' ∨ (r.kind = k ∧ r.id = id ∧ info = info') := by
    intro c info info' hc h
    by_cases hk : k = r.kind
    · subst hk
      simp only [Books.enter, Function.update_self, SortedMap.find?_insert, hc] at h
      split at h
      · rename_i hid
        exact .inr ⟨rfl, hid.symm, Option.some.inj h⟩
      · exact .inl (hvacate h)
    · simp only [Books.enter, Function.update_of_ne hk, hc] at h
      exact .inl (hvacate h)
  cases h with
  | unchanged => exact .inl hf
  | removalFailed => exact .inl hf
  | removed => exact .inl (hstrike hf)
  | @admitted info _ _ hprep _ hbooks =>
      cases hbooks with
      | placed hlive =>
          refine (henter rfl hf).imp_right ?_
          rintro ⟨hk, hid, rfl⟩
          exact ⟨_, hk, hid, hprep, .placed hlive⟩
      | refused => exact .inl (hvacate hf)
      | undone => exact .inl (hvacate hf)
      | single hlive _ _ hleg1 =>
          refine (henter rfl hf).imp_right ?_
          rintro ⟨hk, hid, rfl⟩
          exact ⟨_, hk, hid, hprep, .single _ hlive hleg1⟩
      | dual hlive _ _ hleg1 =>
          refine (henter rfl hf).imp_right ?_
          rintro ⟨hk, hid, rfl⟩
          exact ⟨_, hk, hid, hprep, .dual _ _ _ hlive hleg1⟩

/-- **A request that adds a stream successfully** stores what it has prepared, and
nothing else changes in the tables. -/
theorem find?_of_serve_ok {host : Host} {s : SessionManager} {r : Request} {b : Books}
    (h : Books.Serve host s r .ok b) (hr : r.removes = false) :
    ∃ info info', r.prepared host s = some info ∧
        Stored host r info info' ∧ ∀ k id,
      (b.table k).find? id =
        if k = r.kind ∧ id = r.id then some info' else (s.books.table k).find? id := by
  have henter : ∀ {c : Books} {info' : StreamInfo},
      c.table = (s.books.vacate host r.env r.kind r.id).table → ∀ k id,
      ((c.enter host r.env r.kind r.id r.name info').table k).find? id =
        if k = r.kind ∧ id = r.id then some info' else (s.books.table k).find? id := by
    intro c info' hc k id
    by_cases hk : k = r.kind
    · subst hk
      simp only [Books.enter, Function.update_self, SortedMap.find?_insert, hc, Books.vacate,
        true_and]
      split
      · rfl
      · rename_i hid
        split
        · rfl
        · simp [Books.strike, SortedMap.find?_erase, hid]
    · simp only [Books.enter, Function.update_of_ne hk, hc, Books.vacate, hk, false_and, if_false]
      split
      · rfl
      · simp [Books.strike, hk]
  cases h with
  | unchanged hret => exact absurd rfl hret
  | removed hr' => rw [hr] at hr'; cases hr'
  | @admitted info _ _ hprep _ hbooks =>
      cases hbooks with
      | placed hlive => exact ⟨info, _, hprep, .placed hlive, henter rfl⟩
      | single hlive _ _ hleg1 => exact ⟨info, _, hprep, .single _ hlive hleg1, henter rfl⟩
      | dual hlive _ _ hleg1 => exact ⟨info, _, hprep, .dual _ _ _ hlive hleg1, henter rfl⟩

/-- A sink is added when all its legs are registered. -/
theorem addSink_ok_iff {host : Host} {env : Env} {sink : StreamSink} {s : SessionManager} :
    (s.addSink host env sink).1 = .ok ↔ ∃ info, (Request.addSink env sink).Registers host s info := by
  cases hadd : s.addSink host env sink with
  | mk ret s' =>
  have hserve := addSink_books hadd
  generalize s'.books = b at hserve
  cases hserve with
  | unchanged hne hpre =>
      refine iff_of_false hne ?_
      rintro ⟨info, hreg⟩
      obtain ⟨habsent, hname⟩ := hpre info hreg.prepared
      rw [SortedMap.contains, hreg.name habsent] at hname
      cases hname
  | removalFailed hrem => cases hrem
  | removed hrem => cases hrem
  | @admitted info _ _ hprep hname hbooks =>
      cases hbooks with
      | placed hlive => cases hlive
      | refused hlive hfirst =>
          refine iff_of_false (by simp) ?_
          rintro ⟨info', hreg⟩
          exact hfirst hreg.first
      | undone hlive hfirst hfresh hleg1 hsecond hundo =>
          refine iff_of_false (by simp) ?_
          rintro ⟨info', hreg⟩
          obtain rfl := Option.some.inj (hreg.prepared.symm.trans hprep)
          exact hsecond (hreg.second _ _ hfirst hleg1)
      | single hlive hfirst hfresh hleg1 =>
          exact iff_of_true rfl
            ⟨info, Request.registers_single hprep hname hlive hfirst hfresh hleg1⟩
      | dual hlive hfirst hfresh hleg1 hsecond hfresh1 =>
          exact iff_of_true rfl
            ⟨info, Request.registers_dual hprep hname hlive hfirst hfresh hsecond hfresh1⟩

/-- A sink that cannot be prepared changes nothing. -/
theorem addSink_unprepared {host : Host} {env : Env} {sink : StreamSink} {s : SessionManager}
    (h : (Request.addSink env sink).prepared host s = none) : (s.addSink host env sink).2 = s := by
  rw [addSink]
  split
  · rfl
  · rename_i hid
    rw [Request.prepared, if_neg hid] at h
    cases hprep : preparedSink host env s.ptp sink with
    | error r => rfl
    | ok info => simp [hprep, Except.toOption] at h

/-- A prepared sink that is not added again is gone. -/
theorem find?_addSink_failed {host : Host} {env : Env} {sink : StreamSink} {s : SessionManager}
    {old info : StreamInfo} (hold : s.sinks.find? sink.id = some old)
    (hprep : (Request.addSink env sink).prepared host s = some info)
    (hret : (s.addSink host env sink).1 ≠ .ok) :
    (s.addSink host env sink).2.sinks.find? sink.id = none := by
  cases hadd : s.addSink host env sink with
  | mk ret s' =>
  rw [hadd] at hret
  have hserve := addSink_books hadd
  have hvac : ((s.books.vacate host env .sink sink.id).table .sink).find? sink.id = none :=
    Books.find?_vacate
  change (s'.books.table .sink).find? sink.id = none
  generalize s'.books = b at hserve
  cases hserve with
  | unchanged hne hpre => exact absurd (hold.symm.trans (hpre _ hprep).1) (by simp)
  | removalFailed hrem => cases hrem
  | removed hrem => cases hrem
  | admitted hprep' hname hbooks =>
      cases hbooks with
      | placed => exact absurd rfl hret
      | refused => exact hvac
      | undone => exact hvac
      | single => exact absurd rfl hret
      | dual => exact absurd rfl hret

/-- A request with a handle to remove has a defined outcome. -/
theorem serve_isSome {host : Host} {s : SessionManager} {r : Request}
    (h : r.Defined host s) : ∃ ret s', s.serve host r = some (ret, s') := by
  rw [← Prod.exists', ← Option.isSome_iff_exists, Option.isSome_iff_ne_none]
  intro hnone
  cases r with
  | addSource env source =>
      have hnone : s.addSource host env source = none := hnone
      unfold addSource at hnone
      split at hnone
      · cases hnone
      split at hnone
      · cases hnone
      · rename_i hid hmap
        split at hnone
        · cases hnone
        · rename_i stream hstream
          simp only at hnone
          split at hnone
          · exact absurd (registerSource_eq_none hnone).1 (by simp)
          · rename_i habsent
            split at hnone
            · cases hnone
            · rename_i hname
              obtain ⟨-, hlive, h0, leg1, hfirst, hfresh, hleg1, hsecond⟩ :=
                registerSource_eq_none hnone
              have hfind : (s.books.table .source).find? source.id = none := habsent
              have hlost : (Request.addSource env source).LosesSecondLeg host s
                  (sourceInfo host source stream s.gSessionVersion) h0 leg1 :=
                { prepared := by simp [Request.prepared, hid, hmap, hstream]
                  name := fun _ => Option.not_isSome_iff_eq_none.mp hname
                  live := hlive
                  first := hfirst
                  fresh := by
                    rw [vacate_of_find?_none (by exact hfind)]
                    exact hfresh
                  leg1 := hleg1
                  second := by
                    rw [vacate_of_find?_none (by exact hfind)]
                    exact hsecond }
              have hundo := h _ _ _ hlost
              rw [show (s.books.table (Request.addSource env source).kind).find?
                (Request.addSource env source).id = none from hfind] at hundo
              simp [Request.undoHandle] at hundo
  | removeSource env id => cases hnone
  | addSink env sink => cases hnone
  | removeSink env id => cases hnone

/-- The step of a request with a defined outcome. -/
theorem step_cases {host : Host} {s : SessionManager} {r : Request} (h : r.Defined host s) :
    ∃ ret s', s.serve host r = some (ret, s') ∧ s.step host r = some s' ∧
      Books.Serve host s r ret s'.books := by
  obtain ⟨ret, s', hs⟩ := serve_isSome h
  exact ⟨ret, s', hs, by simp [step, hs], serve_books hs⟩

end SessionManager
end Aes67Daemon
