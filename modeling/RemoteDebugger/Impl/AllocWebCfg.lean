import RemoteDebugger.Impl.AllocProfile
import RemoteDebugger.Impl.WebCfgRequest

/-!
# `rrdMsgPackDecoder.c` with its allocations

From the payload to the request, and the callbacks of the request. The strings
of an unpacked object point into the payload, and its arrays and maps are in the
zone that the library allocates.
-/

namespace RRD.Alloc

open Framework Framework.Prog

/-- These functions have no effects. They run in the thread and in the framework. -/
abbrev WebCfgProg (W E α : Type) := Prog (W × Nat) (MemEvent Site E) α

/-- What has a result if there is no fault. -/
def orStop {W E α : Type} : Except Fault α → Prog W E α
  | .error _ => stop
  | .ok a => pure a

/-! ## Pointers -/

/-- `remotedebuggerparam_t`. -/
structure RemotedebuggerParamPtr where
  block : Block Site
  commandList : Option CharPtr
  length : Nat
  deriving DecidableEq, Repr

/-- `remotedebuggerdoc_t`. -/
structure RemotedebuggerDocPtr where
  block : Block Site
  param : Option RemotedebuggerParamPtr
  entriesCount : Nat
  subdocName : Option CharPtr
  version : Nat
  transactionId : Nat
  deriving DecidableEq, Repr

/-- `execData`. -/
structure ExecDataPtr where
  block : Block Site
  txid : Nat
  version : Nat
  numOfEntries : Nat
  subdocName : Str
  userData : Option RemotedebuggerDocPtr
  deriving DecidableEq, Repr

def RemotedebuggerParamPtr.value (param : RemotedebuggerParamPtr) : RemotedebuggerParam :=
  ⟨param.commandList.map CharPtr.text, param.length⟩

def RemotedebuggerParamPtr.blocks (param : RemotedebuggerParamPtr) : List (Block Site) :=
  param.block :: textOf param.commandList

def RemotedebuggerDocPtr.value (doc : RemotedebuggerDocPtr) : RemotedebuggerDoc :=
  ⟨doc.param.map RemotedebuggerParamPtr.value, doc.entriesCount, doc.subdocName.map CharPtr.text, doc.version,
    doc.transactionId⟩

/-- The document after `memset`. -/
def RemotedebuggerDocPtr.zero (block : Block Site) : RemotedebuggerDocPtr := ⟨block, none, 0, none, 0, 0⟩

/-- The structure, its name, and its parameter. -/
def RemotedebuggerDocPtr.blocks (doc : RemotedebuggerDocPtr) : List (Block Site) :=
  doc.block :: textOf doc.subdocName ++ (doc.param.map RemotedebuggerParamPtr.blocks).getD []

def ExecDataPtr.value (request : ExecDataPtr) : ExecData :=
  ⟨request.txid, request.version, request.numOfEntries, request.subdocName,
    request.userData.map RemotedebuggerDocPtr.value⟩

def ExecDataPtr.blocks (request : ExecDataPtr) : List (Block Site) :=
  request.block :: (request.userData.map RemotedebuggerDocPtr.blocks).getD []

variable {W E : Type} (lib : WebCfgLib)

/-! ## The document -/

/-- The loop of `process_remotedebuggerparams` over a map in `msg`. -/
def processParams (msg : List (Block Site)) (rrdParam : RemotedebuggerParamPtr) :
    List (MsgObject × MsgObject) → WebCfgProg W E (Int × RemotedebuggerParamPtr)
  | [] => pure (-1, rrdParam)
  | (.str key, .array arr) :: kvs => do
    use msg
    if keyMatch key (str "IssueType") then do
      let commandList ← malloc .commandList
      use (commandList :: rrdParam.block :: msg)
      pure (0, { rrdParam with
        commandList := some ⟨commandList, joinIssueTypes arr⟩
        length := getReqTotalSizeOfIssueTypesStr arr })
    else processParams msg rrdParam kvs
  | _ :: kvs => do
    use msg
    processParams msg rrdParam kvs

/-- `process_remotedebuggerdoc` on objects in `msg`. -/
def processRemotedebuggerdoc (msg : List (Block Site)) (ld : RemotedebuggerDocPtr) (args : List (Option MsgObject)) :
    WebCfgProg W E (Int × RemotedebuggerDocPtr) := do
  let obj ← orStop (vaArg args 0)
  let obj1 ← orStop (vaArg args 1)
  let obj1 ← orStop (deref obj1)
  let name ← orStop obj1.viaStr
  use (ld.block :: msg)
  let subdocName ← strdup .subdocName (cstr name.bytes)
  let obj2 ← orStop (vaArg args 2)
  let obj2 ← orStop (deref obj2)
  let version ← orStop obj2.viaU64
  let obj3 ← orStop (vaArg args 3)
  let obj3 ← orStop (deref obj3)
  let transactionId ← orStop obj3.viaU64
  let param ← malloc .param
  use (ld.block :: param :: msg)
  let obj ← orStop (deref obj)
  let kvs ← orStop obj.viaMap
  let (ret, param) ← processParams msg ⟨param, none, 0⟩ kvs
  pure (if ret ≠ 0 then -1 else 0, { ld with
    subdocName := some subdocName
    version := version % 2 ^ 32
    transactionId := transactionId % 2 ^ 16
    entriesCount := 1
    param := some param })

def remotedebuggerdocDestroy (ld : RemotedebuggerDocPtr) : WebCfgProg W E Unit := do
  use [ld.block]
  match ld.param with
  | none => pure ()
  | some param => do
    use [param.block]
    free (blockOf param.commandList)
    free (some param.block)
  free (blockOf ld.subdocName)
  free (some ld.block)

/-- `msgpack_unpack_next`: the object, and its zone. -/
def msgpackUnpackNext (buf : CharPtr) : WebCfgProg W E (Option (MsgObject × Block Site)) := do
  use [buf.block]
  match lib.unpackNext buf.text with
  | none => pure none
  | some data => do
    let zone ← malloc .zone
    pure (some (data, zone))

/-- What `helper_convert` does with a map in `msg`: whether it returns the document. -/
def convertMap (msg : List (Block Site)) (kvs : List (MsgObject × MsgObject)) (p : RemotedebuggerDocPtr) (wrapper : Str)
    (expectType : MsgObjectType) (optional : Bool)
    (process : List (Block Site) → RemotedebuggerDocPtr → List (Option MsgObject) → WebCfgProg W E (Int × RemotedebuggerDocPtr)) :
    WebCfgProg W E (Bool × RemotedebuggerDocPtr) := do
  use msg
  let inner := finder wrapper expectType kvs
  let args :=
    if wrapper.take (str "parameters").length = str "parameters" then some [inner]
    else if wrapper ≠ str "parameters" then
      some [inner, finder (str "subdoc_name") expectType kvs, finder (str "version") expectType kvs,
        finder (str "transaction_id") expectType kvs]
    else none
  match args with
  | none => pure (false, p)
  | some args =>
    if inner.isSome then do
      let (ret, p) ← process msg p args
      pure (decide (ret = 0), p)
    else pure (optional, p)

def helperConvert (buf : Option CharPtr) (wrapper : Str) (expectType : MsgObjectType) (optional : Bool)
    (process : List (Block Site) → RemotedebuggerDocPtr → List (Option MsgObject) → WebCfgProg W E (Int × RemotedebuggerDocPtr))
    (destroy : RemotedebuggerDocPtr → WebCfgProg W E Unit) : WebCfgProg W E (Option RemotedebuggerDocPtr) := do
  let block ← malloc .premotedebuggerInfo
  use [block]
  let p := RemotedebuggerDocPtr.zero block
  match buf with
  | none => pure (some p)
  | some buf =>
    if buf.text = [] then pure (some p)
    else do
      let msg ← msgpackUnpackNext lib buf
      let (converted, p) ← match msg with
        | some (.map kvs, zone) => convertMap [buf.block, zone] kvs p wrapper expectType optional process
        | _ => pure (false, p)
      -- `msgpack_unpacked_destroy`, on every way out
      free (msg.map Prod.snd)
      if converted then pure (some p)
      else do
        destroy p
        pure none

def remotedebuggerdocConvert (buf : Option CharPtr) : WebCfgProg W E (Option RemotedebuggerDocPtr) :=
  helperConvert lib buf (str "remotedebugger") .map true processRemotedebuggerdoc remotedebuggerdocDestroy

/-! ## Decoding -/

/-- `get_base64_decodedbuffer`: the buffer, where it returns 0. -/
def getBase64Decodedbuffer (pString : Str) : WebCfgProg W E (Option CharPtr) := do
  let decodeMsg ← malloc .decodeMsg
  use [decodeMsg]
  match lib.b64Decode pString with
  | none => do
    free (some decodeMsg)
    pure none
  | some bytes => pure (some ⟨decodeMsg, bytes⟩)

def getMsgpackUnpackStatus (decodedbuf : CharPtr) : WebCfgProg W E Bool :=
  if decodedbuf.text = [] then pure false
  else do
    let deserialized ← msgpackUnpackNext lib decodedbuf
    free (deserialized.map Prod.snd)
    pure deserialized.isSome

/-- `decodeWebCfgData`, and the request that it gives to `PushBlobRequest`. -/
def decodeWebCfgData (pString : Str) : WebCfgProg W E (Int × Option ExecDataPtr) := do
  match ← getBase64Decodedbuffer lib pString with
  | none => pure (-1, none)
  | some decodeMsg =>
    if ← getMsgpackUnpackStatus lib decodeMsg then do
      let premotedebuggerInfo ← remotedebuggerdocConvert lib
        (some { decodeMsg with text := decodeMsg.text ++ [lastByte lib pString decodeMsg.text] })
      free (some decodeMsg.block)
      match premotedebuggerInfo with
      | none => pure (-1, none)
      | some premotedebuggerInfo => do
        use (premotedebuggerInfo.block :: textOf premotedebuggerInfo.subdocName)
        let block ← malloc .execData
        use [block, premotedebuggerInfo.block]
        pure (0, some ⟨block, premotedebuggerInfo.transactionId, premotedebuggerInfo.version, 1, str "remotedebugger",
          some { premotedebuggerInfo with entriesCount := 1 }⟩)
    else do
      free (some decodeMsg.block)
      pure (-1, none)

/-! ## The callbacks -/

/-- `pushIssueTypesToMsgQueue`, which takes the list over, up to `RRDMsgDeliver`. -/
def pushIssueTypesToMsgQueue (issueTypeList : CharPtr) (sndtype : MsgType) : WebCfgProg W E DataBufPtr := do
  let sbuf ← malloc .sbuf
  use [sbuf, issueTypeList.block]
  let buf := RRD.pushIssueTypesToMsgQueue issueTypeList.text sndtype
  pure ⟨sbuf, buf.mtype, some { issueTypeList with text := buf.mdata }, none, buf.inDynamic, buf.appendMode, buf.dsEvent,
    none⟩

def prepareDataToPush (param : RemotedebuggerParamPtr) (commandList : CharPtr) : WebCfgProg W E DataBufPtr := do
  use [param.block]
  let issueTypeList ← strdup .mdata (commandList.text.take param.length)
  use [commandList.block, issueTypeList.block]
  pushIssueTypesToMsgQueue issueTypeList .eventMsg

/-- `Process_RemoteDebugger_WebConfigRequest`: its status, with the block of it,
and the message that it puts on the queue. -/
def processRemoteDebuggerWebConfigRequest (data : Option RemotedebuggerDocPtr) :
    WebCfgProg W E ((Block Site × Err) × Option DataBufPtr) := do
  let retStatus ← malloc .retStatus
  use (retStatus :: (data.map RemotedebuggerDocPtr.block).toList)
  match data.bind RemotedebuggerDocPtr.param with
  | none => pure ((retStatus, webConfigFailure), none)
  | some param => do
    use [param.block]
    match param.commandList with
    | none => pure ((retStatus, webConfigFailure), none)
    | some commandList => do
      let sbuf ← prepareDataToPush param commandList
      pure ((retStatus, ⟨.blobExecSuccess, []⟩), some sbuf)

def freeResourcesRemoteDebugger (blobExecData : ExecDataPtr) : WebCfgProg W E Unit := do
  use [blobExecData.block]
  match blobExecData.userData with
  | none => pure ()
  | some premotedebuggerInfo => do
    use (premotedebuggerInfo.block :: textOf premotedebuggerInfo.subdocName)
    remotedebuggerdocDestroy premotedebuggerInfo
  free (some blobExecData.block)

end RRD.Alloc
