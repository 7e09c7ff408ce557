import RemoteDebugger.Framework.CString
import RemoteDebugger.Impl.Cache

/-!
# Values in memory

The copy that an event handler of `rrdInterface.c` makes of a value, from the
allocation to the thread that reads it. An access that is not within the
allocation ends with `none`. Allocations succeed.
-/

namespace RRD

open Framework

/-- `_remoteDebuggerEventHandler`: the memory of `dataMsg`. -/
def dataMsgMem (value : Str) : Option Str := do
  let len := value.length + 1
  let dataMsg ← strncpy (calloc len) value (len - 1)
  storeByte dataMsg (len - 1) 0

/-- `_remoteDebuggerWebCfgDataEventHandler`: the memory of `inString`. -/
def inStringMem (value : Str) : Option Str :=
  let len := value.length
  strncpy (calloc len) value len

/-- `checkAppendRequest` in the memory of the request. -/
def checkAppendRequestMem (issueRequest : Str) : Option (Bool × Str) := do
  let issuestrLen ← strlen issueRequest
  let suffixstrLen := appendSuffix.length
  if suffixstrLen ≤ issuestrLen ∧ cstr (issueRequest.drop (issuestrLen - suffixstrLen)) = appendSuffix then
    let issueRequest ← storeByte issueRequest (issuestrLen - suffixstrLen) 0
    return (true, issueRequest)
  else return (false, issueRequest)

/-- `pushIssueTypesToMsgQueue` puts the memory on the queue, and what takes it off
measures it: `get_base64_decodedbuffer` for a `EVENT_WEBCFG_MSG`. -/
def receivedString (mem : Str) : Option Str := do
  let (_, mdata) ← checkAppendRequestMem mem
  let length ← strlen mdata
  return mdata.take length

end RRD
