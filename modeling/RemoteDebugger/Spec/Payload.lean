import RemoteDebugger.Impl.WebCfgRequest
import RemoteDebugger.Proof.WebCfg.Lookup

/-!
# What a web configuration asks for

`verdict` is what comes of a payload, in terms of the object that it unpacks to:
it is rejected, it is misread, or it asks for issue types. `AskedQueue` are the
accepted payloads that wait for the framework, as the issue types that they ask
for, and the messages for them.
-/

namespace RRD

open Framework

variable (lib : WebCfgLib)

/-- The map that a payload unpacks to, if it is base64 and msgpack. -/
def payloadMap (pString : Str) : Option (List (MsgObject × MsgObject)) := do
  let decodeMsg ← lib.b64Decode pString
  if getMsgpackUnpackStatus lib decodeMsg then
    match lib.unpackNext (decodeMsg ++ [lastByte lib pString decodeMsg]) with
    | some (.map kvs) => some kvs
    | _ => none
  else none

/-- The array of the first entry that answers to `IssueType`. -/
def issueTypesOf (inner : List (MsgObject × MsgObject)) : Option (List MsgObject) :=
  (inner.find? issueTypeAnswers).bind fun kv => match kv.2 with
    | .array arr => some arr
    | _ => none

inductive Verdict where
  | rejected
  /-- A field is missing, or read as another type. -/
  | misread
  /-- The issue types, if the document is there. -/
  | accepted (issueTypes : Option (List MsgObject))

def mapVerdict (kvs : List (MsgObject × MsgObject)) : Verdict :=
  match field "remotedebugger" kvs, field "subdoc_name" kvs, field "version" kvs, field "transaction_id" kvs with
  | none, _, _, _ => .accepted none
  | some (.map inner), some (.str _), some (.positiveInteger _), some (.positiveInteger _) =>
    match issueTypesOf inner with
    | some arr => .accepted (some arr)
    | none => .rejected
  | _, _, _, _ => .misread

def verdict (pString : Str) : Verdict :=
  match payloadMap lib pString with
  | none => .rejected
  | some kvs => mapVerdict kvs

/-- The message for the issue types of an array: its strings, between commas. -/
def issueMessage (arr : List MsgObject) : DataBuf := pushIssueTypesToMsgQueue (joinIssueTypes arr) .eventMsg

structure AskedQueue where
  pending : List (Option (List MsgObject))
  sent : List DataBuf

namespace AskedQueue

def init : AskedQueue := ⟨[], []⟩

def step (q : AskedQueue) : WebCfgAct → Option AskedQueue
  | .decode pString =>
    match verdict lib pString with
    | .rejected => some q
    | .misread => none
    | .accepted issueTypes => some { q with pending := q.pending ++ [issueTypes] }
  | .execute i =>
    q.pending[i]?.map fun issueTypes => { q with sent := q.sent ++ (issueTypes.map issueMessage).toList }
  | .release i => if i < q.pending.length then some { q with pending := q.pending.eraseIdx i } else none

end AskedQueue

end RRD
