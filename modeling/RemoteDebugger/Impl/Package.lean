import RemoteDebugger.Framework.CString
import RemoteDebugger.Impl.Dispatch

/-!
# The names of packages in memory

The buffers of `rrdDynamic.c`: the path of the deep sleep profile, and the two
strings of a request. An access that is not within a buffer ends with `none`, or
stops the program. Allocations succeed. And the profile name of a device, of
`rrdJsonParser.c`.
-/

namespace RRD

open Framework Framework.Prog

/-! ## The profile name -/

/-- Whether `RRD_DEVICE_PROFILE` lists the profile. -/
def lookupRrdProfileList (rrdDeviceProfile : Str) (profile : Option Str) : Bool :=
  match profile with
  | none => false
  | some profile => !profile.isEmpty && (strtok (ch ',') rrdDeviceProfile).contains profile

def getRrdProfileName (rrdDeviceProfile : Str) (deviceType : Option Str) : Str :=
  if lookupRrdProfileList rrdDeviceProfile deviceType then deviceType.getD [] else []

variable (cfg : Config) (env : Env)

/-! ## The path of the deep sleep profile -/

def rrdGetDeepSleepdynJSONPathLen : Nat :=
  rrdMediaApps.length + rdmPkgPrefix.length + deepSleepStr.length + cfg.profileName.length + rrdJsonFile.length + 1

/-- `dynJSONPath`. Its length is raised after the allocation where there is a profile name. -/
def dynJSONPathMem (junk : Nat → Byte) (node : Str) : Option Str :=
  let dynJSONPathLen := rrdGetDeepSleepdynJSONPathLen cfg
  let dynJSONPath := malloc junk dynJSONPathLen
  if cfg.profileName ≠ [] then
    let dynJSONPathLen := dynJSONPathLen + 1
    snprintfTo dynJSONPath dynJSONPathLen
      (rrdMediaApps ++ rdmPkgPrefix ++ cfg.profileName ++ str "-" ++ node ++ rrdJsonFile)
  else snprintfTo dynJSONPath dynJSONPathLen (rrdMediaApps ++ rdmPkgPrefix ++ node ++ rrdJsonFile)

/-! ## The strings of a request -/

/-- The request for a node: `paramString` and `msgDataString`. -/
def nodeStringsMem (node : Str) (mSGLength : Nat) : Option (Str × Str) := do
  let paramString ← snprintfTo (calloc mSGLength) mSGLength (rdmPkgPrefix ++ node ++ rdmPkgSuffix)
  let msgDataStringSize := rdmPkgPrefix.length + node.length + 1
  let msgDataString ← snprintfTo (calloc msgDataStringSize) msgDataStringSize (rdmPkgPrefix ++ node)
  return (paramString, msgDataString)

/-- The request for deep sleep, where `msgDataString` is the start of `paramString`. -/
def deepSleepStringsMem (mSGLength : Nat) : Option (Str × Str) := do
  let msgDataStringSize := rdmPkgPrefix.length + deepSleepStr.length + rdmPkgSuffix.length
  let (paramString, msgDataStringSize) ←
    if cfg.profileName ≠ [] then
      (snprintfTo (calloc mSGLength) mSGLength
        (rdmPkgPrefix ++ cfg.profileName ++ str "-" ++ deepSleepStr ++ rdmPkgSuffix)).map
          (·, msgDataStringSize + (cfg.profileName.length + 1))
    else
      (snprintfTo (calloc mSGLength) mSGLength (rdmPkgPrefix ++ deepSleepStr ++ rdmPkgSuffix)).map (·, msgDataStringSize)
  let msgDataString ← strncpy (calloc msgDataStringSize) (cstr paramString) (msgDataStringSize - rdmPkgSuffix.length)
  return (paramString, msgDataString)

/-- `paramString` and `msgDataString`. -/
def requestStringsMem (node : Str) (isDeepSleepAwakeEvent : Bool) (mSGLength : Nat) : Option (Str × Str) :=
  if cfg.iarm ∧ isDeepSleepAwakeEvent then deepSleepStringsMem cfg mSGLength else nodeStringsMem node mSGLength

/-- The request and the cached one, from memory: `rbusValue_SetString` and `strdup` read
a string up to its terminator. -/
def sendRequest (rbuf : DataBuf) (paramString msgDataString : Str) : Prog Nat Effect Unit :=
  match strlen paramString, strlen msgDataString with
  | some paramLen, some msgDataLen => do
    emit (.rbusSet (paramString.take paramLen))
    if ← call (env.rbusSet · (paramString.take paramLen)) then
      emit (.appendItem (msgDataString.take msgDataLen) (requestedIssue rbuf))
  | _, _ => stop

/-- `RRDRdmManagerDownloadRequest` in memory. -/
def rrdRdmManagerDownloadRequestMem (pissueStructNode : IssueNodeData) (rbuf : DataBuf)
    (isDeepSleepAwakeEvent : Bool) : Prog Nat Effect Unit :=
  match pissueStructNode.node, rrdGetProfileStringLength cfg pissueStructNode (cfg.iarm && isDeepSleepAwakeEvent) with
  | some node, some mSGLength =>
    match requestStringsMem cfg node isDeepSleepAwakeEvent mSGLength with
    | none => stop
    | some (paramString, msgDataString) => sendRequest env rbuf paramString msgDataString
  | _, _ => pure ()

end RRD
