import Aes67Daemon.Lib.Seek
import Aes67Daemon.Net.Url
import Aes67Daemon.Session.Streams

/-!
# RTSP sessions

`RtspSession` of `rtsp_server.cpp`: what a client sends is collected in a buffer,
and every read is followed by attempts to process a request from the front of it.
An attempt reads the text line by line, keeps the last `CSeq` it has seen even
when the request is not complete, and counts one byte more for every line than the
line has, for its newline.  The caller then shifts the buffer by that count.

What has been sent, and which updates of sources the session was told of, is kept
in a log.  An access outside the buffer, and the exception `parse_url` throws on
some URLs, end the thread of the server: they are `none`.

## Main definitions

* `Directory` — what a session asks the session manager for.
* `RtspSession` — the members of a session, and its log.
* `processRequest`, `readSome` — `process_request`, and what follows a read.
* `announce` — `announce`.
-/
namespace Aes67Daemon

open Text

/-! ## Surroundings -/

/-- What an RTSP server reads besides the configuration of the session manager. -/
structure RtspHost extends Host where
  rtspPort : UInt16 := 8854
  /-- `httplib::detail::encode_url`. -/
  encodeUrl : Text → Text := id

/-- What a session asks the session manager for. -/
structure Directory where
  /-- `get_source_id`. -/
  sourceId : Text → UInt8
  /-- `get_source_sdp`, `none` when the source is not in use. -/
  sourceSdp : UInt8 → Option Text

/-- The id that stands for no source. -/
def noSource : UInt8 := UInt8.ofNat (streamIdMax + 1)

/-! ## Answers -/

/-- What becomes of a complete request. -/
inductive Answer
  /-- A response of the client is not answered. -/
  | skipped
  | error (statusCode : ℕ) (description : Text)
  | described (id : UInt8) (sdp : Text)
  deriving DecidableEq

/-- One entry of the log. -/
inductive RtspRecord
  | answered (request : Text) (cseq : ℤ) (answer : Answer)
  | announced (cseq : ℕ) (id : UInt8) (name sdp : Text)
  /-- The session was told of an update, whether or not it announced it. -/
  | updated (id : UInt8) (sdp : Text)
  deriving DecidableEq

def crlf : Text := ['\r', '\n']

/-- The lines of `send_error`, of a response to `DESCRIBE` and of `announce`. -/
def RtspRecord.toText (h : RtspHost) : RtspRecord → Text
  | .answered _ _ .skipped | .updated _ _ => []
  | .answered _ cseq (.error statusCode description) =>
      "RTSP/1.0 ".toList ++ ofNat statusCode ++ ' ' :: description ++ crlf ++
        (if 0 ≤ cseq then "CSeq: ".toList ++ ofNat cseq.toNat ++ crlf else []) ++ crlf
  | .answered _ cseq (.described _ sdp) =>
      "RTSP/1.0 200 OK".toList ++ crlf ++
        "CSeq: ".toList ++ ofNat cseq.toNat ++ crlf ++
        "Content-Length: ".toList ++ ofNat sdp.length ++ crlf ++
        "Content-Type: application/sdp".toList ++ crlf ++ crlf ++ sdp
  | .announced cseq _ name sdp =>
      "ANNOUNCE rtsp://".toList ++ h.config.ipAddrStr ++ ':' :: ofNat h.rtspPort.toNat ++
        h.encodeUrl ("/by-name/".toList ++ h.config.nodeId ++ ' ' :: name) ++
        " RTSP/1.0".toList ++ crlf ++
        "User-Agent: aes67-daemon".toList ++ crlf ++ "connection: Keep-Alive".toList ++ crlf ++
        "CSeq: ".toList ++ ofNat cseq ++ crlf ++
        "Content-Length: ".toList ++ ofNat sdp.length ++ crlf ++
        "Content-Type: application/sdp".toList ++ crlf ++ crlf ++ sdp

/-- `build_response`; `none` is the exception of `parse_url`. -/
def buildResponse (h : RtspHost) (dir : Directory) (url : Text) : Option Answer :=
  (parseUrl (h.decodeUrl url)).map fun u =>
    if !u.ok then .error 400 "Bad Request".toList
    else
      let basePath := "/by-name/".toList ++ h.config.nodeId ++ [' ']
      let id :=
        if (seek basePath u.path).isSome then dir.sourceId (u.path.drop basePath.length)
        else if (seek "/by-id/".toList u.path).isSome then
          match stoi (u.path.drop 7) with
          | some n => UInt8.ofInt n
          | none => noSource
        else noSource
      if id ≠ noSource then
        match dir.sourceSdp id with
        | some sdp => .described id sdp
        | none => .error 404 "Not found".toList
      else .error 404 "Not found".toList

/-- What `process_request` does with a complete request, of which it has at least
three fields. -/
def answer (h : RtspHost) (dir : Directory) (fields : List Text) (cseq : ℤ) : Option Answer :=
  if (fields.getD 0 []).take 5 = "RTSP/".toList then some .skipped
  else if cseq < 0 then some (.error 400 "Bad Request".toList)
  else if (fields.getD 2 []).take 5 ≠ "RTSP/".toList then some (.error 400 "Bad Request".toList)
  else if fields.getD 0 [] ≠ "DESCRIBE".toList then some (.error 405 "Method Not Allowed".toList)
  else buildResponse h dir (trim (fields.getD 1 []))

/-! ## Reading a request -/

/-- What the loop over the headers makes of a line. -/
inductive HeaderLine
  | ending
  | cseq (n : ℤ)
  /-- A `CSeq` that is no number. -/
  | unreadable
  | other
  deriving DecidableEq

/-- The kind of a line.  A carriage return alone passes for the end of the headers,
whether or not a newline followed it. -/
def headerLine (header : Text) : HeaderLine :=
  if header = [] ∨ header = ['\r'] then .ending
  else
    let header := trim (toLower header)
    if "cseq:".toList <+: header then
      match stoi (header.drop 5) with
      | some n => .cseq n
      | none => .unreadable
    else .other

/-- Where the loop over the headers stops. -/
structure Headers where
  isEnd : Bool
  cseq : ℤ
  consumed : ℕ
  deriving DecidableEq

/-- The loop over the headers. -/
def readHeaders (cseq : ℤ) (consumed : ℕ) : List Text → Headers
  | [] => { isEnd := false, cseq, consumed }
  | header :: rest =>
    let consumed := consumed + header.length + 1
    match headerLine header with
    | .ending => { isEnd := true, cseq, consumed }
    | .cseq n => readHeaders n consumed rest
    | .unreadable => { isEnd := false, cseq, consumed }
    | .other => readHeaders cseq consumed rest

/-- The fields of a request line. -/
def requestFields (line : Text) : List Text := splitBy (· = ' ') (trim line)

/-! ## The session -/

/-- `RtspSession`: the first `length_` bytes of `data_`, the members, and the log,
newest entry first. -/
structure RtspSession where
  buffer : Text := []
  cseq : ℤ := -1
  announceCseq : ℕ := 0
  /-- The ids described on this session. -/
  sourceIds : List UInt8 := []
  log : List RtspRecord := []
  deriving DecidableEq

namespace RtspSession

/-- `max_length`. -/
def maxLength : ℕ := 4096

/-- Log an answer; an id is remembered once it has been described. -/
def record (s : RtspSession) (line : Text) (a : Answer) : RtspSession :=
  { s with
    log := .answered (trim line) s.cseq a :: s.log
    sourceIds :=
      match a with
      | .described id _ => s.sourceIds.insert id
      | _ => s.sourceIds }

/-- `process_request`, with `consumed_` when it returns true.  The text ends at the
first null byte. -/
def processRequest (h : RtspHost) (dir : Directory) (s : RtspSession) :
    Option (Option ℕ × RtspSession) :=
  match getLines (upToNul s.buffer) with
  | [] => some (none, s)
  | line :: rest =>
    if (requestFields line).length < 3 then some (none, s)
    else
      let headers := readHeaders s.cseq (line.length + 1) rest
      let s := { s with cseq := headers.cseq }
      if headers.isEnd then
        (answer h dir (requestFields line) s.cseq).map fun a =>
          (some headers.consumed, s.record line a)
      else some (none, s)

/-- The loop that follows a read, for at most `n` requests.  `length_ - consumed_`
wraps around when more was counted than is there. -/
def serve (h : RtspHost) (dir : Directory) : ℕ → RtspSession → Option RtspSession
  | 0, s => some s
  | n + 1, s =>
    if s.buffer = [] then some s
    else
      (s.processRequest h dir).bind fun
        | (none, s) => some s
        | (some consumed, s) =>
          if s.buffer.length < consumed then none
          else serve h dir n { s with buffer := s.buffer.drop consumed, cseq := -1 }

/-- What follows a read; every request takes bytes off the buffer.  A session whose
buffer is full has been stopped. -/
def readSome (h : RtspHost) (dir : Directory) (s : RtspSession) (chunk : Text) :
    Option RtspSession :=
  if s.buffer.length = maxLength then some s
  else serve h dir (s.buffer ++ chunk).length { s with buffer := s.buffer ++ chunk }

/-- `announce`, for an update of a source. -/
def announce (s : RtspSession) (id : UInt8) (name sdp : Text) : RtspSession :=
  let s := { s with log := .updated id sdp :: s.log }
  if s.cseq < 0 ∧ id ∈ s.sourceIds then
    { s with
      log := .announced s.announceCseq id name sdp :: s.log
      announceCseq := s.announceCseq + 1 }
  else s

end RtspSession

/-- A directory with one source. -/
def oneSource (id : UInt8) (sdp : Text) : Directory where
  sourceId _ := noSource
  sourceSdp id' := if id' = id then some sdp else none

end Aes67Daemon
