import Mathlib.Data.List.Induction
import Mathlib.Data.Vector.Basic
import Mathlib.Tactic.Common

/-!
# Commands to the kernel driver

`DriverHandler::send_command` sends one request over a netlink socket and reads
one datagram back; what it finds there goes to `on_command_done` and
`on_command_error`, which leave it in two members of `DriverManager`, `retcode_`
and `recv_data_`.  Every call of `DriverManager` sends its command and then reads
these members, with the lock of `send_command` already released.

A datagram is the list of its messages, and the data of a message is its
`dataSize` bytes.  The sizes in the driver's header are parameters.  A request
that cannot be sent leaves the call by an exception, since the handler that is
there catches another type; such a call returns nothing and changes nothing.

## Main definitions

* `Command` — what one call of `DriverManager` sends, and how much it copies.
* `Results` — the two members.
* `sendCommand` — the members after a command.
* `lastDone` — the message of a datagram that decides.
* `Report` — what a call returns.
-/
namespace Aes67Daemon

/-- `MT_ALSA_msg_id`, in the order of `alsa_msg_str`. -/
inductive AlsaMsgId
  | start
  | stop
  | reset
  | startIo
  | stopIo
  | setSampleRate
  | getSampleRate
  | getAudioMode
  | setDsdAudioMode
  | setTicFrameSizeAt1fs
  | setMaxTicFrameSize
  | setNumberOfInputs
  | setNumberOfOutputs
  | getNumberOfInputs
  | getNumberOfOutputs
  | setInterfaceName
  | addRtpStream
  | removeRtpStream
  | updateRtpStreamName
  | getPtpInfo
  | hello
  | bye
  | ping
  | setMasterOutputVolume
  | setMasterOutputSwitch
  | getMasterOutputVolume
  | getMasterOutputSwitch
  | setPlayoutDelay
  | setCaptureDelay
  | getRtpStreamStatus
  | setPtpConfig
  | getPtpConfig
  | getPtpStatus
  deriving DecidableEq

/-- The error codes of a command: `DriverErrc`, and what `send_command` adds from
`DaemonErrc`. -/
inductive CommandError
  | unknown
  | invalidDataSize
  | invalidValue
  | commandFailed
  | commandNotFound
  | unknownCommand
  | invalidDaemonResponse
  | invalidDaemonResponseSize
  | sendInvalidSize
  | receiveU2kFailed
  | invalidDriverResponse
  deriving DecidableEq

/-- `get_driver_error`. -/
def getDriverError (code : ℤ) : CommandError :=
  if code = -302 then .invalidDaemonResponseSize
  else if code = -303 then .invalidDaemonResponse
  else if code = -314 then .unknownCommand
  else if code = -315 then .invalidDataSize
  else if code = -401 then .commandFailed
  else if code = -404 then .commandNotFound
  else if code = -805 then .invalidValue
  else .unknown

/-- What a call of `DriverManager` sends, and the number of bytes it copies out of
`recv_data_`, zero where it copies none. -/
structure Command where
  id : AlsaMsgId
  data : List UInt8 := []
  resultSize : ℕ := 0
  deriving DecidableEq

/-- One message of a datagram: whether its type is `NLMSG_DONE`, the fields of the
`MT_ALSA_msg` in it, and the data after that. -/
structure NetlinkMsg where
  done : Bool := true
  id : AlsaMsgId
  errCode : ℤ := 0
  data : List UInt8 := []
  deriving DecidableEq

/-! ## The calls of `DriverManager` -/

namespace DriverManager

/-- Memory of a given size. -/
abbrev Bytes (n : ℕ) := List.Vector UInt8 n

def hello : Command := { id := .hello }
def bye : Command := { id := .bye }
def start : Command := { id := .start }
def stop : Command := { id := .stop }
def reset : Command := { id := .reset }
def ping : Command := { id := .ping }

section
-- `sizeof` of `TPTPConfig`, `TPTPStatus`, `TRTP_stream_info` and `TRTP_stream_status`
variable {ptpConfigSize ptpStatusSize streamInfoSize streamStatusSize : ℕ}

def setPtpConfig (config : Bytes ptpConfigSize) : Command :=
  { id := .setPtpConfig, data := config.toList }

def getPtpConfig (ptpConfigSize : ℕ) : Command :=
  { id := .getPtpConfig, resultSize := ptpConfigSize }

def getPtpStatus (ptpStatusSize : ℕ) : Command :=
  { id := .getPtpStatus, resultSize := ptpStatusSize }

/-- The name goes with its final null byte. -/
def setInterfaceName (ifname : List UInt8) : Command :=
  { id := .setInterfaceName, data := ifname ++ [0] }

/-- The result is the handle of the stream. -/
def addRtpStream (streamInfo : Bytes streamInfoSize) : Command :=
  { id := .addRtpStream, data := streamInfo.toList, resultSize := 8 }

def getRtpStreamStatus (streamHandle : Bytes 8) (streamStatusSize : ℕ) : Command :=
  { id := .getRtpStreamStatus, data := streamHandle.toList, resultSize := streamStatusSize }

def removeRtpStream (streamHandle : Bytes 8) : Command :=
  { id := .removeRtpStream, data := streamHandle.toList }

def setSampleRate (sampleRate : Bytes 4) : Command :=
  { id := .setSampleRate, data := sampleRate.toList }

def setTicFrameSizeAt1fs (frameSize : Bytes 8) : Command :=
  { id := .setTicFrameSizeAt1fs, data := frameSize.toList }

def setMaxTicFrameSize (frameSize : Bytes 8) : Command :=
  { id := .setMaxTicFrameSize, data := frameSize.toList }

def setPlayoutDelay (delay : Bytes 4) : Command :=
  { id := .setPlayoutDelay, data := delay.toList }

def getSampleRate : Command := { id := .getSampleRate, resultSize := 4 }
def getNumberOfInputs : Command := { id := .getNumberOfInputs, resultSize := 4 }
def getNumberOfOutputs : Command := { id := .getNumberOfOutputs, resultSize := 4 }

end
end DriverManager

/-! ## The members a command leaves its result in -/

/-- `retcode_` and `recv_data_`. -/
structure Results where
  /-- `none` is success. -/
  retcode : Option CommandError := none
  recvData : ℕ → UInt8 := fun _ => 0

namespace Results

/-- `on_command_done`: the bytes behind the data stay as they were. -/
def onCommandDone (r : Results) (data : List UInt8) : Results :=
  { retcode := none, recvData := fun i => data.getD i (r.recvData i) }

/-- `on_command_error`. -/
def onCommandError (r : Results) (error : CommandError) : Results :=
  { r with retcode := some error }

/-- What `send_command` does with one message of the datagram. -/
def receiveMsg (id : AlsaMsgId) (r : Results) (m : NetlinkMsg) : Results :=
  if m.done then
    if id ≠ m.id then r.onCommandError .invalidDriverResponse
    else if m.errCode = 0 then r.onCommandDone m.data
    else r.onCommandError (getDriverError m.errCode)
  else r

/-- `DriverHandler::send_command`, with the datagram it received; `none` is an
error of the socket, such as the timeout. -/
def sendCommand (maxPayload : ℕ) (c : Command) (received : Option (List NetlinkMsg))
    (r : Results) : Results :=
  if maxPayload < c.data.length then r.onCommandError .sendInvalidSize
  else match received with
    | none => r.onCommandError .receiveU2kFailed
    | some msgs => msgs.foldl (receiveMsg c.id) r

/-- The first bytes of `recv_data_`. -/
def read (r : Results) (n : ℕ) : List UInt8 := (List.range n).map r.recvData

@[simp] theorem retcode_onCommandDone (r : Results) (data : List UInt8) :
    (r.onCommandDone data).retcode = none := rfl

@[simp] theorem retcode_onCommandError (r : Results) (error : CommandError) :
    (r.onCommandError error).retcode = some error := rfl

@[simp] theorem length_read (r : Results) (n : ℕ) : (r.read n).length = n := by
  simp [read]

@[simp] theorem read_zero (r : Results) : r.read 0 = [] := rfl

/-- Data that is long enough is all that is read. -/
theorem read_onCommandDone (r : Results) {data : List UInt8} {n : ℕ} (h : n ≤ data.length) :
    (r.onCommandDone data).read n = data.take n := by
  refine List.ext_getElem (by simp [h]) fun i hi _ => ?_
  have hn : i < n := by simpa using hi
  have hlt : i < data.length := by omega
  simp [read, onCommandDone, hlt]

end Results

/-! ## The message that decides -/

/-- The last message of a datagram whose type is `NLMSG_DONE`. -/
def lastDone (msgs : List NetlinkMsg) : Option NetlinkMsg := (msgs.filter (·.done)).getLast?

namespace NetlinkMsg

/-- Whether a message reports the success of a command. -/
def Succeeds (id : AlsaMsgId) (m : NetlinkMsg) : Prop := m.id = id ∧ m.errCode = 0

instance (id : AlsaMsgId) (m : NetlinkMsg) : Decidable (m.Succeeds id) :=
  inferInstanceAs (Decidable (_ ∧ _))

end NetlinkMsg

section
variable {id : AlsaMsgId} {r : Results} {msgs : List NetlinkMsg} {m : NetlinkMsg}

theorem lastDone_append_singleton (msgs : List NetlinkMsg) (m : NetlinkMsg) :
    lastDone (msgs ++ [m]) = if m.done then some m else lastDone msgs := by
  by_cases hm : m.done
  · simp [lastDone, hm]
  · simp [lastDone, hm]

theorem done_of_lastDone (h : lastDone msgs = some m) : m.done = true :=
  (List.mem_filter.mp (List.mem_of_getLast? h)).2

/-- A datagram without a final message changes nothing. -/
theorem foldl_receiveMsg_none (h : lastDone msgs = none) :
    msgs.foldl (Results.receiveMsg id) r = r := by
  induction msgs using List.reverseRecOn with
  | nil => rfl
  | append_singleton msgs m ih =>
      rw [lastDone_append_singleton] at h
      by_cases hm : m.done = true
      · rw [if_pos hm] at h
        cases h
      · rw [if_neg hm] at h
        rw [List.foldl_append, ih h, List.foldl_cons, List.foldl_nil, Results.receiveMsg, if_neg hm]

variable (id r) in
/-- In any other datagram the last final message decides. -/
theorem foldl_receiveMsg_some (h : lastDone msgs = some m) :
    ∃ r' : Results, msgs.foldl (Results.receiveMsg id) r = r'.receiveMsg id m := by
  induction msgs using List.reverseRecOn with
  | nil => cases h
  | append_singleton msgs m' ih =>
      rw [lastDone_append_singleton] at h
      rw [List.foldl_append, List.foldl_cons, List.foldl_nil]
      by_cases hm : m'.done = true
      · rw [if_pos hm] at h
        obtain rfl := Option.some.inj h
        exact ⟨_, rfl⟩
      · rw [if_neg hm] at h
        obtain ⟨r', hr'⟩ := ih h
        exact ⟨r', by rw [hr', Results.receiveMsg.eq_1 id _ m', if_neg hm]⟩

variable (id r) in
/-- A final message is a success or leaves an error. -/
theorem receiveMsg_cases (hdone : m.done = true) :
    (m.Succeeds id ∧ r.receiveMsg id m = r.onCommandDone m.data) ∨
      (¬ m.Succeeds id ∧ ∃ e, r.receiveMsg id m = r.onCommandError e) := by
  rw [Results.receiveMsg, if_pos hdone]
  by_cases hid : m.id = id
  · by_cases herr : m.errCode = 0
    · exact .inl ⟨⟨hid, herr⟩, by rw [if_neg (not_not.mpr hid.symm), if_pos herr]⟩
    · exact .inr ⟨fun h => herr h.2, _, by rw [if_neg (not_not.mpr hid.symm), if_neg herr]⟩
  · exact .inr ⟨fun h => hid h.1, _, by rw [if_pos fun h => hid h.symm]⟩

end

namespace Results
variable {maxPayload : ℕ} {c : Command} {r : Results} {msgs : List NetlinkMsg} {m : NetlinkMsg}

/-- A request that is not sent, or not answered in time, ends in an error. -/
theorem sendCommand_failed {received : Option (List NetlinkMsg)}
    (h : maxPayload < c.data.length ∨ received = none) :
    (r.sendCommand maxPayload c received).retcode ≠ none := by
  rcases h with h | rfl
  · rw [sendCommand.eq_def, if_pos h]
    exact Option.some_ne_none _
  · rw [sendCommand]
    split <;> exact Option.some_ne_none _

/-- A datagram without a final message leaves what an earlier command left. -/
theorem sendCommand_unfinished (hsize : c.data.length ≤ maxPayload) (h : lastDone msgs = none) :
    r.sendCommand maxPayload c (some msgs) = r := by
  rw [sendCommand, if_neg (not_lt.mpr hsize)]
  exact foldl_receiveMsg_none h

/-- A datagram whose last final message reports success. -/
theorem sendCommand_succeeds (hsize : c.data.length ≤ maxPayload) (h : lastDone msgs = some m)
    (hm : m.Succeeds c.id) :
    ∃ r' : Results, r.sendCommand maxPayload c (some msgs) = r'.onCommandDone m.data := by
  obtain ⟨r', hr'⟩ := foldl_receiveMsg_some c.id r h
  refine ⟨r', ?_⟩
  rw [sendCommand, if_neg (not_lt.mpr hsize)]
  rcases receiveMsg_cases c.id r' (done_of_lastDone h) with ⟨-, heq⟩ | ⟨hno, -⟩
  · exact hr'.trans heq
  · exact absurd hm hno

/-- A datagram whose last final message reports anything else. -/
theorem sendCommand_refused (hsize : c.data.length ≤ maxPayload) (h : lastDone msgs = some m)
    (hm : ¬ m.Succeeds c.id) : (r.sendCommand maxPayload c (some msgs)).retcode ≠ none := by
  obtain ⟨r', hr'⟩ := foldl_receiveMsg_some c.id r h
  rcases receiveMsg_cases c.id r' (done_of_lastDone h) with ⟨hyes, -⟩ | ⟨-, e, heq⟩
  · exact absurd hyes hm
  · have hsend : r.sendCommand maxPayload c (some msgs) = r'.onCommandError e := by
      rw [sendCommand, if_neg (not_lt.mpr hsize)]
      exact hr'.trans heq
    rw [hsend]
    exact Option.some_ne_none _

end Results

/-! ## What a call returns -/

/-- The code a call returns, and on success the bytes it has copied. -/
structure Report where
  retcode : Option CommandError
  data : List UInt8 := []
  deriving DecidableEq

/-- The rest of a call that is not interrupted. -/
def Results.report (c : Command) (r : Results) : Report :=
  { retcode := r.retcode, data := if r.retcode = none then r.read c.resultSize else [] }

end Aes67Daemon
