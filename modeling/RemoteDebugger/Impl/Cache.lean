import RemoteDebugger.Framework.Bytes

/-!
# The request cache and the completion handlers

`rrdRunCmdThread.c` (`append_item`, `findPresentInCache`, `remove_item`), the
message buffers of `rrdInterface.c`, and the two handlers of installation
events: `_rdmManagerEventHandler` of `rrdIarmEvents.c` and
`_rdmDownloadEventHandler` of `rrdInterface.c`. Allocations succeed.
-/

namespace RRD

open Framework

/-! ## Names -/

def rrdJsonFile : Str := str "/etc/rrd/remote_debugger.json"
def deepSleepStr : Str := str "DEEPSLEEP"
def rdmPkgPrefix : Str := str "RDK-RRD-"
def rdmPkgSuffix : Str := str ":1.0"
def rrdTmpDir : Str := str "/tmp/"
def appendSuffix : Str := str "_apnd"

/-! ## The cache -/

/-- A node of the list, with the address `malloc` gave it. -/
structure CacheData where
  addr : Nat
  mdata : Str
  issueString : Str
  deriving DecidableEq, Repr

/-- The list from `CacheDataNode` on. -/
abbrev Cache := List CacheData

def appendItem (addr : Nat) (pkgData issueTypeData : Str) (c : Cache) : Cache :=
  ⟨addr, pkgData, issueTypeData⟩ :: c

def findPresentInCache (pkgData : Str) (c : Cache) : Option CacheData :=
  c.find? (·.mdata = pkgData)

/-- Unlink a node. -/
def removeItem (cache : CacheData) (c : Cache) : Cache := c.filter (·.addr ≠ cache.addr)

/-! ## Messages -/

/-- `message_type_et`. -/
inductive MsgType where
  | default
  | eventMsg
  | eventWebcfgMsg
  | deepsleepEventMsg
  deriving DecidableEq, Repr

/-- `deepsleep_event_et`. -/
inductive DeepSleepEvent where
  | deepsleepInvalidDefault
  | deepsleepRdmDownloadPkgInitiate
  | deepsleepRdmPkgInstallComplete
  deriving DecidableEq, Repr

/-- `data_buf`. A suffix of `[]` is one that is NULL. -/
structure DataBuf where
  mtype : MsgType
  mdata : Str
  jsonPath : Option Str
  inDynamic : Bool
  appendMode : Bool
  dsEvent : DeepSleepEvent
  suffix : Str
  deriving DecidableEq, Repr

def rrdDataBuffInit (sndtype : MsgType) (deepSleepEvent : DeepSleepEvent) (mdata : Str) : DataBuf :=
  ⟨sndtype, mdata, none, false, false, deepSleepEvent, []⟩

/-- Whether the request asks for append mode, and the request without that suffix. -/
def checkAppendRequest (issueRequest : Str) : Bool × Str :=
  let n := issueRequest.length - appendSuffix.length
  if appendSuffix.length ≤ issueRequest.length ∧ issueRequest.drop n = appendSuffix then
    (true, issueRequest.take n)
  else (false, issueRequest)

/-- A request put on the queue again: `inDynamic`, or append mode if its text asks for it. -/
def redelivered (buf : DataBuf) (jsonPath : Str) : DataBuf :=
  let (append, mdata) := checkAppendRequest buf.mdata
  { buf with
    mdata := mdata
    jsonPath := some jsonPath
    inDynamic := !append
    appendMode := append }

/-! ## The handlers -/

/-- `IARM_RDMMgr_Status_t`. -/
inductive RdmMgrStatus where
  | pkgInstallComplete
  | pkgInstallError
  | pkgDownloadComplete
  | pkgDownloadError
  | pkgExtractComplete
  | pkgExtractError
  | pkgValidateComplete
  | pkgValidateError
  | pkgPostinstallComplete
  | pkgPostinstallError
  | pkgUninstall
  | pkgInvalidInput
  deriving DecidableEq, Repr

/-- `IARM_Bus_RDMMgr_EventData_t`, without the version. -/
structure EventData where
  pkgName : Str
  pkgInstPath : Str
  pkgInstStatus : RdmMgrStatus
  deriving DecidableEq, Repr

/-- What `_rdmManagerEventHandler` sends for `cache` when its package is installed. -/
def rdmCompleteMessage (pkgInstPath : Str) (cache : CacheData) : DataBuf :=
  let sendbuf :=
    if cache.issueString = deepSleepStr then
      rrdDataBuffInit .deepsleepEventMsg .deepsleepRdmPkgInstallComplete cache.issueString
    else rrdDataBuffInit .eventMsg .deepsleepInvalidDefault cache.issueString
  redelivered sendbuf (pkgInstPath ++ rrdJsonFile)

/-- What `_rdmManagerEventHandler` sends when it finds `cache`. -/
def rdmManagerMessage (eventData : EventData) (cache : CacheData) : Option DataBuf :=
  if eventData.pkgInstStatus = .pkgInstallComplete then some (rdmCompleteMessage eventData.pkgInstPath cache)
  else none

/-- `_rdmManagerEventHandler` on an installation status event: the cache it
leaves and the messages it sends. -/
def rdmManagerEventHandler (eventData : EventData) (c : Cache) : Cache × List DataBuf :=
  match findPresentInCache eventData.pkgName c with
  | none => (c, [])
  | some cache => (removeItem cache c, (rdmManagerMessage eventData cache).toList)

/-- The package name that `_rdmDownloadEventHandler` makes of the issue type. -/
def rdmDownloadPkgName (issue : Str) : Str := rdmPkgPrefix ++ issue.takeWhile (· ≠ ch '.')

/-- What `_rdmDownloadEventHandler` sends when it finds `cache`. -/
def rdmDownloadMessage (pkgName : Str) (cache : CacheData) : DataBuf :=
  redelivered (rrdDataBuffInit .eventMsg .deepsleepRdmPkgInstallComplete cache.issueString)
    (rrdTmpDir ++ pkgName ++ rrdJsonFile)

/-- `_rdmDownloadEventHandler`, when `rbus_get` answers that the issue type is `issue`. -/
def rdmDownloadEventHandler (issue : Option Str) (c : Cache) : Cache × List DataBuf :=
  match issue with
  | none => (c, [])
  | some issue =>
    let pkgName := rdmDownloadPkgName issue
    match findPresentInCache pkgName c with
    | none => (c, [])
    | some cache => (removeItem cache c, [rdmDownloadMessage pkgName cache])

end RRD
