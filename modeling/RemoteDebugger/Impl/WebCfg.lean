import Mathlib.Algebra.Ring.Nat
import RemoteDebugger.Framework.CString

/-!
# The WebCfg decoder

`rrdMsgPackDecoder.c`: `__finder`, `helper_convert`, `process_remotedebuggerdoc`,
`process_remotedebuggerparams` and `remotedebuggerdoc_convert`, on the object
that the msgpack library unpacks. A read of a union member other than the one
of the object's type, and a read through a null pointer, are faults.
Allocations succeed.
-/

namespace RRD

open Framework

/-! ## Objects -/

/-- `msgpack_object_str`: a pointer into the payload, and a size. The bytes from
`size` on are those that follow in memory. -/
structure MsgStr where
  ptr : Nat → Byte
  size : Nat

def MsgStr.bytes (s : MsgStr) : List Byte := (List.range s.size).map s.ptr

/-- `msgpack_object`, a union with its type. -/
inductive MsgObject where
  | nil
  | boolean (b : Bool)
  | positiveInteger (u64 : Nat)
  | negativeInteger (i64 : Int)
  | float32
  | float64
  | str (s : MsgStr)
  | array (elems : List MsgObject)
  | map (kvs : List (MsgObject × MsgObject))
  | bin
  | ext

/-- `msgpack_object_type`. -/
inductive MsgObjectType where
  | nil
  | boolean
  | positiveInteger
  | negativeInteger
  | float32
  | float64
  | str
  | array
  | map
  | bin
  | ext
  deriving DecidableEq, Repr

def MsgObject.type : MsgObject → MsgObjectType
  | nil => .nil
  | boolean _ => .boolean
  | positiveInteger _ => .positiveInteger
  | negativeInteger _ => .negativeInteger
  | float32 => .float32
  | float64 => .float64
  | str _ => .str
  | array _ => .array
  | map _ => .map
  | bin => .bin
  | ext => .ext

/-! ## Faults -/

inductive Fault where
  | nullPointer
  | otherMember
  /-- `va_arg` after the last argument. -/
  | noArgument
  deriving DecidableEq, Repr

/-- Read through a pointer. -/
def deref : Option MsgObject → Except Fault MsgObject
  | none => .error .nullPointer
  | some o => .ok o

def MsgObject.viaStr : MsgObject → Except Fault MsgStr
  | str s => .ok s
  | _ => .error .otherMember

def MsgObject.viaU64 : MsgObject → Except Fault Nat
  | positiveInteger u64 => .ok u64
  | _ => .error .otherMember

def MsgObject.viaMap : MsgObject → Except Fault (List (MsgObject × MsgObject))
  | map kvs => .ok kvs
  | _ => .error .otherMember

def vaArg (args : List (Option MsgObject)) (i : Nat) : Except Fault (Option MsgObject) :=
  if h : i < args.length then .ok args[i] else .error .noArgument

/-! ## Lookup -/

/-- Whether `strncmp(p, s, n)` is 0. -/
def strncmpEq : Nat → (Nat → Byte) → Str → Bool
  | 0, _, _ => true
  | n + 1, p, s => p 0 = s.headD 0 ∧ (p 0 = 0 ∨ strncmpEq n (fun i => p (i + 1)) s.tail)

/-- `match(p, name)` is 0: the key is compared up to its own size. -/
def keyMatch (key : MsgStr) (name : Str) : Bool := strncmpEq key.size key.ptr name

/-- `__finder`. -/
def finder (name : Str) (expectType : MsgObjectType) : List (MsgObject × MsgObject) → Option MsgObject
  | [] => none
  | (.str key, val) :: kvs =>
    if expectType = val.type then
      if keyMatch key name then some val else finder name expectType kvs
    else if val.type = .str then
      if strncmpEq name.length key.ptr name then some val else finder name expectType kvs
    else
      if strncmpEq name.length key.ptr name then some val else finder name expectType kvs
  | (_, _) :: kvs => finder name expectType kvs

/-- How many bytes at `p` are read by `strncmp(p, s, n)`. -/
def strncmpReads : Nat → (Nat → Byte) → Str → Nat
  | 0, _, _ => 0
  | n + 1, p, s => if p 0 = s.headD 0 ∧ p 0 ≠ 0 then strncmpReads n (fun i => p (i + 1)) s.tail + 1 else 1

/-- `MISSING_ENTRY`. -/
def missingEntry : Int := 3

/-- What a call of `__finder` leaves: the index of the entry that it returns the
value of, `errno`, and of each key that it compares the number of bytes read. -/
structure FinderCall where
  entry : Option Nat
  errno : Int
  reads : List (MsgStr × Nat)

/-- A key compared to the name on `n` bytes: the search ends at entry `i`, or goes on. -/
def compareKey (i : Nat) (key : MsgStr) (name : Str) (n : Nat) (errno : Int) (next : FinderCall) : FinderCall :=
  let read := (key, strncmpReads n key.ptr name)
  if strncmpEq n key.ptr name then ⟨some i, errno, [read]⟩ else { next with reads := read :: next.reads }

/-- `__finder` from entry `i` on, with its accesses. -/
def finderRun (name : Str) (expectType : MsgObjectType) (errno : Int) :
    Nat → List (MsgObject × MsgObject) → FinderCall
  | _, [] => ⟨none, missingEntry, []⟩
  | i, (.str key, val) :: kvs =>
    let next := finderRun name expectType errno (i + 1) kvs
    if expectType = val.type then compareKey i key name key.size errno next
    else if val.type = .str then compareKey i key name name.length errno next
    else compareKey i key name name.length errno next
  | i, (_, _) :: kvs => finderRun name expectType errno (i + 1) kvs

/-! ## The document -/

/-- `remotedebuggerparam_t`. -/
structure RemotedebuggerParam where
  commandList : Option Str
  length : Nat
  deriving DecidableEq, Repr

/-- `remotedebuggerdoc_t`. -/
structure RemotedebuggerDoc where
  param : Option RemotedebuggerParam
  entriesCount : Nat
  subdocName : Option Str
  version : Nat
  transactionId : Nat
  deriving DecidableEq, Repr

/-- The document after `memset`. -/
def RemotedebuggerDoc.zero : RemotedebuggerDoc := ⟨none, 0, none, 0, 0⟩

/-- `getReqTotalSizeOfIssueTypesStr`. -/
def getReqTotalSizeOfIssueTypesStr (arr : List MsgObject) : Nat :=
  (arr.map fun o => match o with
    | .str s => s.size
    | _ => 0).sum + arr.length + 1

/-- The issue types of an array, the strings of it joined by commas. -/
def joinIssueTypes : List MsgObject → Str
  | [] => []
  | .str s :: arr => cstr s.bytes ++ (if arr = [] then [] else [ch ',']) ++ joinIssueTypes arr
  | _ :: arr => joinIssueTypes arr

/-- The loop over an array of `size` objects from `index` on, in the memory of
`commandList`. It ends with `none` at a write that is not within it. -/
def appendIssueTypes (size : Nat) : Nat → List MsgObject → Str → Option Str
  | _, [], commandList => some commandList
  | index, .str s :: arr, commandList => do
    let commandList ← strncat commandList (cstr s.bytes) s.size
    let commandList ← if index < size - 1 then strcat commandList [ch ','] else some commandList
    appendIssueTypes size (index + 1) arr commandList
  | index, _ :: arr, commandList => appendIssueTypes size (index + 1) arr commandList

/-- The memory of `commandList` that `process_remotedebuggerparams` leaves. The
sizes add up to less than that of the payload, which is an `int`. -/
def commandListMem (arr : List MsgObject) : Option Str := do
  let resultLen := getReqTotalSizeOfIssueTypesStr arr
  let commandList ← appendIssueTypes arr.length 0 arr (calloc (resultLen + 1))
  storeByte commandList resultLen 0

/-- The memory of `issueTypeList` that `PrepareDataToPush` leaves, where
`malloc` returns `junk`. -/
def issueTypeListMem (junk : Nat → Byte) (length : Nat) (commandList : Str) : Option Str := do
  let issueTypeList ← strncpy (malloc junk (length + 1)) (cstr commandList) length
  storeByte issueTypeList length 0

/-- The loop of `process_remotedebuggerparams`. -/
def processParams (rrdParam : RemotedebuggerParam) : List (MsgObject × MsgObject) → Int × RemotedebuggerParam
  | [] => (-1, rrdParam)
  | (.str key, .array arr) :: kvs =>
    if keyMatch key (str "IssueType") then
      (0, ⟨some (joinIssueTypes arr), getReqTotalSizeOfIssueTypesStr arr⟩)
    else processParams rrdParam kvs
  | _ :: kvs => processParams rrdParam kvs

/-- The entry, from entry `i` on, that the loop takes the issue types from. -/
def issueTypeEntry : Nat → List (MsgObject × MsgObject) → Option Nat
  | _, [] => none
  | i, (.str key, .array _) :: kvs =>
    if keyMatch key (str "IssueType") then some i else issueTypeEntry (i + 1) kvs
  | i, _ :: kvs => issueTypeEntry (i + 1) kvs

/-- `process_remotedebuggerparams`, which reads `map` of the object it is given. -/
def processRemotedebuggerparams (rrdParam : RemotedebuggerParam) (obj : MsgObject) :
    Except Fault (Int × RemotedebuggerParam) := do
  let kvs ← obj.viaMap
  return processParams rrdParam kvs

/-- `process_remotedebuggerdoc`, with its variable arguments in a list. -/
def processRemotedebuggerdoc (ld : RemotedebuggerDoc) (args : List (Option MsgObject)) :
    Except Fault (Int × RemotedebuggerDoc) := do
  let obj ← vaArg args 0
  let obj1 ← vaArg args 1
  let subdocName ← (← deref obj1).viaStr
  let obj2 ← vaArg args 2
  let version ← (← deref obj2).viaU64
  let obj3 ← vaArg args 3
  let transactionId ← (← deref obj3).viaU64
  let ld : RemotedebuggerDoc :=
    { ld with
      subdocName := some (cstr subdocName.bytes)
      version := version % 2 ^ 32
      transactionId := transactionId % 2 ^ 16
      entriesCount := 1 }
  let (ret, param) ← processRemotedebuggerparams ⟨none, 0⟩ (← deref obj)
  if ret ≠ 0 then return (-1, { ld with param := some param })
  else return (0, { ld with param := some param })

/-- What `helper_convert` does with a map. -/
def convertMap (kvs : List (MsgObject × MsgObject)) (wrapper : Str) (expectType : MsgObjectType) (optional : Bool)
    (process : RemotedebuggerDoc → List (Option MsgObject) → Except Fault (Int × RemotedebuggerDoc)) :
    Except Fault (Option RemotedebuggerDoc) := do
  let inner := finder wrapper expectType kvs
  let args :=
    if wrapper.take (str "parameters").length = str "parameters" then some [inner]
    else if wrapper ≠ str "parameters" then
      some [inner, finder (str "subdoc_name") expectType kvs, finder (str "version") expectType kvs,
        finder (str "transaction_id") expectType kvs]
    else none
  match args with
  | none => return none
  | some args =>
    if inner.isSome then
      let (ret, p) ← process RemotedebuggerDoc.zero args
      if ret = 0 then return some p else return none
    else if optional then return some RemotedebuggerDoc.zero
    else return none

/-- `helper_convert`, where `unpackNext` is `msgpack_unpack_next`, and a buffer that is NULL is `none`. -/
def helperConvert (unpackNext : Str → Option MsgObject) (buf : Option Str) (wrapper : Str)
    (expectType : MsgObjectType) (optional : Bool)
    (process : RemotedebuggerDoc → List (Option MsgObject) → Except Fault (Int × RemotedebuggerDoc)) :
    Except Fault (Option RemotedebuggerDoc) :=
  match buf with
  | none => .ok (some RemotedebuggerDoc.zero)
  | some buf =>
    if buf = [] then .ok (some RemotedebuggerDoc.zero)
    else match unpackNext buf with
      | some (.map kvs) => convertMap kvs wrapper expectType optional process
      | _ => .ok none

/-- `remotedebuggerdoc_convert`. -/
def remotedebuggerdocConvert (unpackNext : Str → Option MsgObject) (buf : Option Str) :
    Except Fault (Option RemotedebuggerDoc) :=
  helperConvert unpackNext buf (str "remotedebugger") .map true processRemotedebuggerdoc

end RRD
