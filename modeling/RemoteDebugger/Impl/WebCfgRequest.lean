import RemoteDebugger.Impl.Daemon
import RemoteDebugger.Impl.WebCfg

/-!
# Requests of the web configuration

`decodeWebCfgData` and the callbacks that it gives to the framework with each
request. A callback of the framework comes at any time between the push of its
request and the release; `WebCfgRequests` are the requests in between, and the
messages that their executions put on the queue.
-/

namespace RRD

open Framework

/-- The decoders that the daemon links. -/
structure WebCfgLib where
  /-- `b64_get_decoded_buffer_size`. -/
  b64DecodedSize : Nat → Nat
  /-- `b64_decode`, which returns a negative size on what is not base64. -/
  b64Decode : Str → Option Str
  /-- `msgpack_unpack_next`: the object, where the payload is unpacked. -/
  unpackNext : Str → Option MsgObject
  /-- What `malloc` leaves behind the decoded bytes. -/
  junk : Byte

/-- `execData`. Its callbacks are the functions below. -/
structure ExecData where
  txid : Nat
  version : Nat
  numOfEntries : Nat
  subdocName : Str
  userData : Option RemotedebuggerDoc
  deriving DecidableEq, Repr

inductive ErrorCode where
  | blobExecSuccess
  | syscfgFailure
  deriving DecidableEq, Repr

/-- `Err`. -/
structure Err where
  errorCode : ErrorCode
  errorMsg : Str
  deriving DecidableEq, Repr

variable (lib : WebCfgLib)

/-! ## Decoding -/

/-- `get_msgpack_unpack_status` is `MSGPACK_UNPACK_SUCCESS`. -/
def getMsgpackUnpackStatus (decodedbuf : Str) : Bool := decodedbuf ≠ [] && (lib.unpackNext decodedbuf).isSome

/-- The byte behind the decoded bytes, which `decodeWebCfgData` passes on with them. -/
def lastByte (pString decodeMsg : Str) : Byte :=
  if decodeMsg.length = lib.b64DecodedSize pString.length then 0 else lib.junk

/-- The request for a document, which has one entry. -/
def execDataLan (premotedebuggerInfo : RemotedebuggerDoc) : ExecData :=
  ⟨premotedebuggerInfo.transactionId, premotedebuggerInfo.version, 1, str "remotedebugger",
    some { premotedebuggerInfo with entriesCount := 1 }⟩

/-- `decodeWebCfgData`, and the request that it gives to `PushBlobRequest`. -/
def decodeWebCfgData (pString : Str) : Except Fault (Int × Option ExecData) :=
  match lib.b64Decode pString with
  | none => return (-1, none)
  | some decodeMsg =>
    if getMsgpackUnpackStatus lib decodeMsg then do
      match ← remotedebuggerdocConvert lib.unpackNext (some (decodeMsg ++ [lastByte lib pString decodeMsg])) with
      | none => return (-1, none)
      | some premotedebuggerInfo => return (0, some (execDataLan premotedebuggerInfo))
    else return (-1, none)

/-! ## The callbacks -/

/-- `PrepareDataToPush`: the message that it puts on the queue. -/
def prepareDataToPush (commandList : Str) (length : Nat) : DataBuf :=
  pushIssueTypesToMsgQueue (commandList.take length) .eventMsg

def webConfigFailure : Err := ⟨.syscfgFailure, str "failure while applying remote debugger subdoc"⟩

/-- `Process_RemoteDebugger_WebConfigRequest`, and the message that it puts on the queue. -/
def processRemoteDebuggerWebConfigRequest (data : Option RemotedebuggerDoc) : Err × Option DataBuf :=
  match data.bind RemotedebuggerDoc.param with
  | some ⟨some commandList, length⟩ => (⟨.blobExecSuccess, []⟩, some (prepareDataToPush commandList length))
  | _ => (webConfigFailure, none)

/-! ## The framework -/

structure WebCfgRequests where
  /-- The requests that are not released. -/
  pending : List ExecData
  /-- The messages put on the queue. -/
  sent : List DataBuf
  deriving DecidableEq

inductive WebCfgAct where
  | decode (pString : Str)
  /-- `executeBlobRequest` of a pending request. -/
  | execute (i : Nat)
  /-- `freeResources` of a pending request. -/
  | release (i : Nat)

namespace WebCfgRequests

def init : WebCfgRequests := ⟨[], []⟩

/-- There is no step for a payload with a missing or mistyped field. -/
def step (s : WebCfgRequests) : WebCfgAct → Option WebCfgRequests
  | .decode pString =>
    -- what a decoder does with what it reads through a wrong pointer is not followed
    match decodeWebCfgData lib pString with
    | .error _ => none
    | .ok (_, request) => some { s with pending := s.pending ++ request.toList }
  | .execute i =>
    s.pending[i]?.map fun request =>
      { s with sent := s.sent ++ (processRemoteDebuggerWebConfigRequest request.userData).2.toList }
  | .release i => if i < s.pending.length then some { s with pending := s.pending.eraseIdx i } else none

/-- The steps as a relation. -/
def Step (s : WebCfgRequests) (a : WebCfgAct) (s' : WebCfgRequests) : Prop := s.step lib a = some s'

end WebCfgRequests

end RRD
