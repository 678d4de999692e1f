import Aes67Daemon.Session.Data

/-!
# The driver and the multicast sockets

`Driver` is the kernel driver as `DriverManager` reaches it: the streams
registered under their handles, and the current sample rate.  Which commands
fail, and which handles new streams get, is decided by the replies of the
environment.  A handle the driver hands out is neither zero nor one it still
holds; a reply that offers such a handle counts as a refusal, so that every
reply stands for something the driver may do.  The driver records the handles
it was asked to remove without holding them.

`Igmp` is `igmp.hpp`: one socket, the groups it has joined, and a reference
count for every group.
-/
namespace Aes67Daemon

/-! ## Streams in the driver -/

/-- The driver behind `DriverManager`. -/
structure Driver where
  /-- The registered streams. -/
  registered : SortedMap Handle TRTPStreamInfo := .empty
  /-- The handles of removals that found no registered stream, newest first. -/
  strayRemovals : List Handle := []
  /-- `get_current_sample_rate`. -/
  sampleRate : UInt32 := 48000

namespace Driver

/-- Whether the driver can hand out a handle. -/
def fresh (d : Driver) (h : Handle) : Prop := h ≠ 0 ∧ d.registered.find? h = none

instance (d : Driver) (h : Handle) : Decidable (d.fresh h) := instDecidableAnd

/-- The driver with one more stream. -/
def hold (d : Driver) (h : Handle) (info : TRTPStreamInfo) : Driver :=
  { d with registered := d.registered.insert h info }

/-- `add_rtp_stream`. -/
def addRtpStream (d : Driver) (reply : Except ErrorCode Handle) (info : TRTPStreamInfo) :
    Except ErrorCode Handle × Driver :=
  match reply with
  | .error e => (.error e, d)
  | .ok h =>
    if d.fresh h then (.ok h, d.hold h info)
    else (.error (.driver 0), d)

/-- `remove_rtp_stream`. -/
def removeRtpStream (d : Driver) (reply : Option ErrorCode) (h : Handle) :
    Option ErrorCode × Driver :=
  if d.registered.contains h then
    match reply with
    | none => (none, { d with registered := d.registered.erase h })
    | some e => (some e, d)
  else (reply, { d with strayRemovals := h :: d.strayRemovals })

@[simp] theorem sampleRate_addRtpStream (d : Driver) (reply : Except ErrorCode Handle)
    (info : TRTPStreamInfo) : (d.addRtpStream reply info).2.sampleRate = d.sampleRate := by
  unfold addRtpStream
  split
  · rfl
  · split <;> rfl

@[simp] theorem sampleRate_removeRtpStream (d : Driver) (reply : Option ErrorCode) (h : Handle) :
    (d.removeRtpStream reply h).2.sampleRate = d.sampleRate := by
  unfold removeRtpStream
  split
  · split <;> rfl
  · rfl

@[simp] theorem removeRtpStream_none (d : Driver) (h : Handle) :
    (d.removeRtpStream none h).1 = none := by
  unfold removeRtpStream
  split <;> rfl

/-- Whether the driver accepts a reply to `add_rtp_stream`. -/
def accepts (d : Driver) : Except ErrorCode Handle → Prop
  | .error _ => False
  | .ok h => d.fresh h

/-- Adding either fails and leaves the driver alone, or registers the stream
under a fresh handle. -/
theorem addRtpStream_cases (d : Driver) (reply : Except ErrorCode Handle) (info : TRTPStreamInfo) :
    (∃ e, d.addRtpStream reply info = (.error e, d)) ∨
    (∃ h, reply = .ok h ∧ d.fresh h ∧ d.addRtpStream reply info = (.ok h, d.hold h info)) := by
  cases reply with
  | error e => exact .inl ⟨e, rfl⟩
  | ok h =>
      by_cases hf : d.fresh h
      · exact .inr ⟨h, rfl, hf, if_pos hf⟩
      · exact .inl ⟨_, if_neg hf⟩

/-- A removal the driver does not refuse takes a registered stream out. -/
theorem removeRtpStream_registered {d : Driver} {h : Handle} {info : TRTPStreamInfo}
    (hr : d.registered.find? h = some info) :
    d.removeRtpStream none h = (none, { d with registered := d.registered.erase h }) := by
  have hc : d.registered.contains h = true := SortedMap.contains_eq_true.mpr ⟨info, hr⟩
  simp [removeRtpStream, hc]

end Driver

/-! ## Group membership -/

/-- `IGMP`: a socket and its reference counts. -/
structure Igmp where
  /-- `mcast_ref`. -/
  mcastRef : SortedMap UInt32 ℕ := .empty
  /-- The memberships of the socket: group and interface. -/
  members : List (UInt32 × Text) := []

namespace Igmp

/-- The reference count of a group. -/
def refs (g : Igmp) (group : UInt32) : ℕ := (g.mcastRef.find? group).getD 0

/-- `IGMP::join`, with the result of the socket option.  A group already counted
is only counted again.  `none` is the exception for a text that is no address. -/
def join (g : Igmp) (optionOk : Bool) (interfaceIp mcastIp : Text) : Option (Bool × Igmp) :=
  if interfaceIp = [] ∨ mcastIp = [] then some (false, g)
  else do
    let group ← Address.ofText mcastIp
    if 0 < g.refs group then
      pure (true, { g with mcastRef := g.mcastRef.insert group (g.refs group + 1) })
    else
      let _ ← Address.ofText interfaceIp
      if optionOk then
        pure (true, { mcastRef := g.mcastRef.insert group 1,
                      members := g.members.insert (group, interfaceIp) })
      else pure (false, g)

/-- `IGMP::leave`.  The count is lowered before the socket option is set. -/
def leave (g : Igmp) (optionOk : Bool) (interfaceIp mcastIp : Text) : Option (Bool × Igmp) :=
  if interfaceIp = [] ∨ mcastIp = [] then some (false, g)
  else do
    let group ← Address.ofText mcastIp
    if g.refs group = 0 then pure (false, g)
    else
      let g := { g with mcastRef := g.mcastRef.insert group (g.refs group - 1) }
      if 0 < g.refs group then pure (true, g)
      else
        let _ ← Address.ofText interfaceIp
        if optionOk then
          pure (true, { g with members := g.members.filter (· ≠ (group, interfaceIp)) })
        else pure (false, g)

/-- The socket after an attempt to join a group; the result is not looked at. -/
def joined (i : Igmp) (optionOk : Bool) (interfaceIp mcastIp : Text) : Igmp :=
  ((i.join optionOk interfaceIp mcastIp).map Prod.snd).getD i

/-- The socket after an attempt to leave a group; the result is not looked at. -/
def left (i : Igmp) (optionOk : Bool) (interfaceIp mcastIp : Text) : Igmp :=
  ((i.leave optionOk interfaceIp mcastIp).map Prod.snd).getD i

end Igmp
end Aes67Daemon
